import Interpose.Dispatch.Recorder
import Interpose.Dispatch.Script
import Interpose.Dispatch.Wrangler
import Interpose.Proofs.InsetSteps
import Interpose.Proofs.Precedence
/-!
# Handlers beside an inset

Numbers of arrays mean nothing to a recorder. They mean nothing to a wrangler either, as far as they
mean nothing to its substitutes; and a script can only refer to arrays by the values that are written
down in it, so it is enough that the inset leaves these as they are.

## Main definitions

* `Inset.CarriesShadow`: shadows to which numbers of arrays mean nothing
* `Inset.Spares`: scripts whose values stay what they are

## Main results

* `Inset.recorder_carries`, `Inset.wrangler_carries`: handlers
* `Inset.script_carries`: scripts
-/

namespace Interpose

namespace Inset

variable {s : Inset}

/-! ### Plans -/

theorem answer_carries (v : Value) : s.CarriesPlan (.answer v) (.answer (s.value v)) :=
  .finish (.ok v)

theorem fail_carries (e : VmError) : s.CarriesPlan (.fail e) (.fail (s.error e)) :=
  .finish (.error e)

theorem ask_carries (r : Request) : s.CarriesPlan (.ask r) (.ask (s.request r)) :=
  .request r fun result => .finish result

/-! ### Recorders and wranglers -/

/-- **Recorders.** -/
theorem recorder_carries (r : Recorder) : s.CarriesHandler r.handler where
  callsDirectly _ _ := rfl
  classInitializing c := by
    refine .note (.initializing c) ?_
    split
    · exact answer_carries .null
    · exact ask_carries (.performInitializer c)
  methodInvoked call := by
    refine .note (.called call) ?_
    split
    · exact ask_carries (.callDirect call)
    · exact answer_carries .null

/-- Shadows to which numbers of arrays mean nothing. -/
structure CarriesShadow (s : Inset) (shadow : Shadow) : Prop where
  methods : ∀ m ∈ shadow.methods, ∀ call, s.CarriesPlan (m.body call) (m.body (s.call call))
  staticInitializer : ∀ run, shadow.staticInitializer? = some run →
    ∀ c, s.CarriesPlan (run c) (run c)

/-- What is found is a substitute of the shadow. -/
theorem mem_of_find? {shadow : Shadow} {call : CallRecord} {m : ShadowMethod}
    (h : shadow.find? call = some m) : m ∈ shadow.methods := by
  rw [Shadow.find?_eq_or, Option.or_eq_some_iff] at h
  rcases h with h | ⟨-, h⟩
  · exact List.mem_of_find?_eq_some h
  · exact List.mem_of_find?_eq_some h

section Wranglers

variable {w : Wrangler}

theorem mem_of_binding? {target : String} {shadow : Shadow} (h : w.binding? target = some shadow) :
    (target, shadow) ∈ w.bindings := by
  obtain ⟨before, behind, hbindings, -⟩ := List.lookup_eq_some_iff.1 h
  rw [hbindings]
  exact List.mem_append_right before List.mem_cons_self

variable (hshadows : ∀ b ∈ w.bindings, s.CarriesShadow b.2)

include hshadows

theorem answerOf_carries (owner : String) (native : Bool) (call : CallRecord) :
    s.CarriesPlan (w.answer owner native call) (w.answer owner native (s.call call)) := by
  unfold Wrangler.answer
  rw [show (w.binding? owner).bind (·.find? (s.call call)) =
    (w.binding? owner).bind (·.find? call) from rfl]
  cases hm : (w.binding? owner).bind (·.find? call) with
  | some m =>
    obtain ⟨shadow, hshadow, hfind⟩ := Option.bind_eq_some_iff.1 hm
    dsimp only
    split
    · exact fail_carries (.strictMode owner call.method)
    · exact (hshadows _ (mem_of_binding? hshadow)).methods m (mem_of_find? hfind) call
  | none =>
    dsimp only
    split
    · exact answer_carries .null
    split
    · exact ask_carries (.callDirect call)
    · exact answer_carries .null

theorem initializing_carries (name : String) (c : ClassRef) :
    s.CarriesPlan (w.initializing name c) (w.initializing name c) := by
  unfold Wrangler.initializing
  cases hrun : (w.binding? name).bind (·.staticInitializer?) with
  | some run =>
    obtain ⟨shadow, hshadow, hinitializer⟩ := Option.bind_eq_some_iff.1 hrun
    exact (hshadows _ (mem_of_binding? hshadow)).staticInitializer run hinitializer c
  | none => exact ask_carries (.performInitializer c)

/-- **Wranglers.** A wrangler looks at the names of classes and at the tables of their methods. -/
theorem wrangler_carries : s.CarriesHandler w.handler where
  callsDirectly _ _ := rfl
  classInitializing c := by
    refine .look fun m => ?_
    rw [cls_machine, name_cls]
    exact initializing_carries hshadows _ c
  methodInvoked call := by
    refine .look fun m => ?_
    rw [owner_call, cls_machine, name_cls, classes_machine, targetsNative_table]
    exact answerOf_carries hshadows _ _ call

end Wranglers

/-! ### Scripts -/

/-- Scripts whose values the inset leaves as they are. -/
inductive Spares (s : Inset) : Script → Prop
  | answer {v : Value} (h : s.value v = v) : Spares s (.answer v)
  | fail {e : VmError} (h : s.error e = e) : Spares s (.fail e)
  | receiver : Spares s .receiver
  | arg (i : Nat) : Spares s (.arg i)
  | direct : Spares s .direct
  | directWith {args : List Value} (h : args.map s.value = args) : Spares s (.directWith args)
  | callVirtual (name descriptor : String) {args : List Value} (h : args.map s.value = args) :
    Spares s (.callVirtual name descriptor args)
  | directlyOn (name descriptor : String) {args : List Value} (h : args.map s.value = args) :
    Spares s (.directlyOn name descriptor args)
  | getField (name : String) : Spares s (.getField name)
  | setField (name : String) {v : Value} (h : s.value v = v) : Spares s (.setField name v)
  | setStatic (cls name : String) {v : Value} (h : s.value v = v) :
    Spares s (.setStatic cls name v)
  | perform : Spares s .perform
  | seq {parts : List Script} (h : ∀ part ∈ parts, Spares s part) : Spares s (.seq parts)

/-- A site whose call is taken over. -/
def site (s : Inset) (place : Site) : Site := { place with call? := place.call?.map s.call }

theorem receiver_site (place : Site) : (s.site place).receiver = s.value place.receiver := by
  unfold Site.receiver site
  cases place.call? <;> rfl

theorem arg_call (call : CallRecord) (i : Nat) : (s.call call).arg i = s.value (call.arg i) := by
  unfold CallRecord.arg Inset.call
  rw [List.getD_eq_getElem?_getD, List.getD_eq_getElem?_getD, List.getElem?_map]
  cases call.args[i]? <;> rfl

section Scripts

variable {next next' : Value → Plan} (hnext : ∀ v, s.CarriesPlan (next v) (next' (s.value v)))

include hnext

theorem andThen_carries {r r' : Request} (h : r' = s.request r) :
    s.CarriesPlan (Script.andThen r next) (Script.andThen r' next') := by
  subst h
  refine .request r fun result => ?_
  cases result with
  | ok v => exact hnext v
  | error e => exact fail_carries e

theorem withCall_carries (place : Site) {r : CallRecord → Request}
    (h : ∀ call, r (s.call call) = s.request (r call)) :
    s.CarriesPlan (Script.withCall place r next) (Script.withCall (s.site place) r next') := by
  unfold Script.withCall site
  cases place.call? with
  | some call => exact andThen_carries hnext (h call)
  | none => exact hnext .null

/-- The plan of a script goes on with its value. -/
theorem plan_script_carries (place : Site) {script : Script} (h : s.Spares script) :
    s.CarriesPlan (script.plan place next) (script.plan (s.site place) next') := by
  induction h generalizing next next' with
  | @answer v h =>
    simpa only [Script.plan, h] using hnext v
  | @fail e h =>
    have hfail := fail_carries (s := s) e
    rw [h] at hfail
    simpa only [Script.plan] using hfail
  | receiver =>
    simp only [Script.plan, receiver_site]
    exact hnext _
  | arg i =>
    simp only [Script.plan]
    unfold site
    cases place.call? with
    | some call => simpa only [Option.map_some, arg_call] using hnext (call.arg i)
    | none => exact hnext .null
  | direct =>
    simp only [Script.plan]
    exact withCall_carries hnext place fun _ => rfl
  | directWith h =>
    simp only [Script.plan]
    exact withCall_carries hnext place fun call =>
      congrArg (fun args => Request.callDirect { s.call call with args := args }) h.symm
  | callVirtual name descriptor h =>
    simp only [Script.plan]
    exact andThen_carries hnext (by rw [receiver_site, request, h])
  | directlyOn name descriptor h =>
    simp only [Script.plan]
    exact andThen_carries hnext (by rw [receiver_site, request, h])
  | getField name =>
    simp only [Script.plan]
    exact andThen_carries hnext (by rw [receiver_site, request])
  | setField name h =>
    simp only [Script.plan]
    exact andThen_carries hnext (by rw [receiver_site, request, h])
  | setStatic cls name h =>
    simp only [Script.plan]
    exact andThen_carries hnext (by rw [request, h])
  | perform =>
    simp only [Script.plan]
    exact andThen_carries hnext rfl
  | @seq parts _ ih =>
    simp only [Script.plan]
    -- What has come last so far is carried along.
    have hall : ∀ (l : List Script), (∀ part ∈ l, part ∈ parts) → ∀ last,
        s.CarriesPlan (Script.planAll place next last l)
          (Script.planAll (s.site place) next' (s.value last) l) := by
      intro l
      induction l with
      | nil => exact fun _ last => by simpa only [Script.planAll] using hnext last
      | cons part rest ihl =>
        intro hl last
        simp only [Script.planAll]
        exact ih part (hl part List.mem_cons_self) fun v =>
          ihl (fun p hp => hl p (List.mem_cons_of_mem _ hp)) v
    exact hall parts (fun _ hp => hp) .null

end Scripts

/-- **Scripts.** Substitutes that are scripts. -/
theorem script_carries (shadow : String) {script : Script} (h : s.Spares script)
    (call : CallRecord) :
    s.CarriesPlan (script.body shadow call) (script.body shadow (s.call call)) :=
  .note (.substituted shadow call)
    (plan_script_carries answer_carries ⟨call.owner, some call⟩ h)

/-- **Scripts.** Static initializers that are scripts. -/
theorem scriptInitializer_carries (shadow : String) {script : Script} (h : s.Spares script)
    (c : ClassRef) : s.CarriesPlan (script.initializer shadow c) (script.initializer shadow c) :=
  .note (.substitutedInit shadow c)
    (plan_script_carries (fun _ => answer_carries .null) ⟨c, none⟩ h)

end Inset

end Interpose
