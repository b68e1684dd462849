import Interpose.Proofs.CongruentSteps
import Interpose.Proofs.Deferral
import Interpose.Proofs.Initialization
import Interpose.Proofs.VerifiedCode
/-!
# Executions that follow abstaining ones

One computation *follows* another under an invariant of machines: from machines that have it, it has
whatever outcome the other has, and the machine has the invariant still. A computation without an
outcome is followed by anything. This is a congruence, so whatever a run that abstains does is
followed by a run of the same kind, as far as the execution of methods and initialization are.

Two things follow. An abstaining run is a run. And where the class is in the middle of its
initialization or behind it, an abstaining run takes no turn: initialization stops at the class, and
nothing else gets to its entry.

## Main definitions

* `Deferral.Kept`: an invariant that only the initialization of the class itself may break
* `Deferral.following`: the congruence
* `Deferral.Apart`: one way to execute methods follows another, apart from the entry and the body

## Main results

* `Deferral.executeUnder_followed`: an abstaining run is a run
* `Deferral.Regular.apart_of_begun`: no turn is taken where the initialization has been begun
-/

namespace Interpose

namespace Deferral

/-- An invariant that nothing breaks but the initialization of the class. -/
class Kept (d : Deferral) (I : Machine → Prop) : Prop where
  retains : ∀ {m m' : Machine}, I m → m.Retains m' → I m'
  atDepth : ∀ {m : Machine} (n : Nat), I m → I (m.atDepth n)
  mark : ∀ {m : Machine} {a : ClassRef} (s : InitState), d.cls ≠ a → I m →
    I (m.updateClasses (·.setState a s))

variable {d : Deferral} {I : Machine → Prop}

/-- How far the class is in its initialization. -/
theorem kept_state (d : Deferral) (Q : InitState → Prop) : d.Kept fun m => Q (m.cls d.cls).state where
  retains h hm := (hm.state d.cls).symm ▸ h
  atDepth _ h := h
  mark _ ha h := (Machine.state_setState_of_ne ha.symm).symm ▸ h

/-! ### Following -/

/-- From machines with an invariant, the second computation has the outcome of the first, if the
first has one, and then the invariant holds on. -/
def following (d : Deferral) (I : Machine → Prop) [hI : d.Kept I] : Run.Congruence where
  Rel x y := ∀ m, I m → ∀ o, x m = some o → y m = some o ∧ I o.2
  refl h m hm o ho := by
    obtain ⟨r, m', hx, hretains⟩ := h m
    rw [hx] at ho
    cases ho
    exact ⟨hx, hI.retains hm hretains⟩
  bind hx hf m hm o ho := by
    rw [Run.bind_apply] at ho ⊢
    split at ho
    · cases ho
    · next a n hxm =>
      obtain ⟨hy, hn⟩ := hx m hm _ hxm
      rw [hy]
      exact hf a n hn o ho
    · next e n hxm =>
      obtain ⟨hy, hn⟩ := hx m hm _ hxm
      rw [hy]
      cases ho
      exact ⟨rfl, hn⟩
  attempt h m hm o ho := by
    rw [Run.attempt] at ho ⊢
    split at ho
    · cases ho
    · next r n hxm =>
      obtain ⟨hy, hn⟩ := h m hm _ hxm
      rw [hy]
      cases ho
      exact ⟨rfl, hn⟩

/-- One computation follows another. -/
abbrev Followed (d : Deferral) (I : Machine → Prop) [d.Kept I] {α : Type} (x y : Run α) : Prop :=
  (d.following I).Related x y

variable [hI : d.Kept I] {α : Type}

/-- What has no outcome is followed by anything. -/
instance outOfFuel_followed (y : Run α) : d.Followed I Run.outOfFuel y :=
  ⟨fun _ _ _ ho => by cases ho⟩

/-- One call deeper. -/
instance deeper_followed {x y : Run α} [h : d.Followed I x y] :
    d.Followed I (Run.deeper x) (Run.deeper y) := by
  refine ⟨fun m hm o ho => ?_⟩
  rw [Run.deeper_apply] at ho ⊢
  split at ho
  · cases ho
  · next r n hxm =>
    obtain ⟨hy, hn⟩ := h.rel _ (hI.atDepth _ hm) _ hxm
    rw [hy]
    cases ho
    exact ⟨rfl, hI.atDepth _ hn⟩

/-- A method on one machine, given what is behind its door. -/
theorem enterBy_follows {body body' : String → LoadedMethod → Frame → Run Value} {c : ClassRef}
    {i : Nat} {args : List Value} {m : Machine} (hm : I m)
    (h : ∀ k, (m.cls c).methods[i]? = some k →
      d.Followed I (body (m.cls c).name k (.enter c k.maxLocals.toNat args))
        (body' (m.cls c).name k (.enter c k.maxLocals.toNat args)))
    {o : Except VmError Value × Machine} (ho : Run.enterBy .enforced body c i args m = some o) :
    Run.enterBy .enforced body' c i args m = some o ∧ I o.2 := by
  cases hk : (m.cls c).methods[i]? with
  | none =>
    have hfail : ∀ b, Run.enterBy .enforced b c i args m =
        some (.error (.noSuchMethod (.position (m.cls c).name i)), m) := by
      intro b
      rw [Run.enterBy, Run.get_bind_apply, hk]
      rfl
    rw [hfail] at ho ⊢
    cases ho
    exact ⟨rfl, hm⟩
  | some k =>
    have hbody := h k hk
    rw [Run.enterBy_apply hk, Limit.verdict_enforced] at ho ⊢
    cases hobstacle : k.obstacle? (m.cls c).name args m with
    | some e =>
      rw [hobstacle] at ho
      cases ho
      exact ⟨rfl, hm⟩
    | none =>
      rw [hobstacle] at ho
      exact (deeper_followed (h := hbody)).rel m hm o ho

/-- **Methods.** -/
theorem enterBy_followed {body body' : String → LoadedMethod → Frame → Run Value}
    (h : ∀ owner k f, d.Followed I (body owner k f) (body' owner k f)) (c : ClassRef) (i : Nat)
    (args : List Value) :
    d.Followed I (Run.enterBy .enforced body c i args) (Run.enterBy .enforced body' c i args) :=
  ⟨fun _ hm _ ho => enterBy_follows hm (fun k _ => h _ k _) ho⟩

/-- **Bodies.** The induction is on the fuel. -/
theorem runBy_followed {step step' : Instruction → Act (Option Value)} {lapse : Run Value}
    (hstep : ∀ i, Act.Related (d.following I) (step i) (step' i)) (hlapse : d.Followed I lapse lapse)
    (owner : String) (k : LoadedMethod) (fuel : Nat) (f : Frame) :
    d.Followed I (Frame.runBy step lapse owner k fuel f) (Frame.runBy step' lapse owner k fuel f) := by
  induction fuel generalizing f with
  | zero => exact hlapse
  | succ fuel ih =>
    rw [Frame.runBy, Frame.runBy]
    cases k.code[f.pc]? with
    | none => infer_instance
    | some i =>
      have hrun := (hstep i).run { f with pc := f.pc + 1 }
      refine .seq fun p => ?_
      obtain ⟨_ | v, f'⟩ := p
      · exact ih f'
      · infer_instance

/-! ### Initialization -/

section Initialization

variable {execute execute' : Execute}

/-- Initialization of one class, given what is between the two marks. -/
theorem initializeLineage_cons_follows {c : ClassRef} {supers : List ClassRef} {m : Machine}
    (hm : I m)
    (h : (m.cls c).state = .uninitialized → ∀ o,
      Run.initializeBody execute c supers (m.begin c) = some o →
        Run.initializeBody execute' c supers (m.begin c) = some o ∧ I (o.2.finish c o.1))
    {o : Except VmError Unit × Machine}
    (ho : Run.initializeLineage execute (c :: supers) m = some o) :
    Run.initializeLineage execute' (c :: supers) m = some o ∧ I o.2 := by
  by_cases hc : (m.cls c).state = .uninitialized
  · rw [Run.initializeLineage_apply supers hc] at ho ⊢
    split at ho
    · cases ho
    · next result n hbody =>
      obtain ⟨hbody', hn⟩ := h hc _ hbody
      rw [hbody']
      cases ho
      exact ⟨rfl, hn⟩
  · rw [Run.initializeLineage_of_begun supers hc] at ho ⊢
    cases ho
    exact ⟨rfl, hm⟩

/-- **Initialization**, given what happens between the two marks of the class itself. The induction
is on the lineage. -/
theorem initializeLineage_followed
    (hcall : ∀ c i args, c ≠ d.cls → d.Followed I (execute c i args) (execute' c i args))
    (hself : ∀ supers, d.Followed I (Run.initializeLineage execute supers)
        (Run.initializeLineage execute' supers) →
      ∀ m, I m → (m.cls d.cls).state = .uninitialized → ∀ o,
        Run.initializeBody execute d.cls supers (m.begin d.cls) = some o →
          Run.initializeBody execute' d.cls supers (m.begin d.cls) = some o ∧
            I (o.2.finish d.cls o.1))
    (lineage : List ClassRef) :
    d.Followed I (Run.initializeLineage execute lineage)
      (Run.initializeLineage execute' lineage) := by
  induction lineage with
  | nil => exact .pure ()
  | cons c supers ih =>
    refine ⟨fun m hm o ho => initializeLineage_cons_follows hm (fun hc o ho => ?_) ho⟩
    by_cases hcls : c = d.cls
    · subst hcls
      exact hself supers ih m hm hc o ho
    · have hinitializer : d.Followed I (Run.runInitializer execute c)
          (Run.runInitializer execute' c) := by
        refine .seq fun m => ?_
        split
        · next i _ =>
          have hrun := hcall c i [] hcls
          infer_instance
        · infer_instance
      have hbody : d.Followed I (Run.initializeBody execute c supers)
          (Run.initializeBody execute' c supers) := by
        unfold Run.initializeBody
        infer_instance
      obtain ⟨ho', hI'⟩ := hbody.rel _ (hI.mark .initializing (Ne.symm hcls) hm) o ho
      exact ⟨ho', hI.mark _ (Ne.symm hcls) hI'⟩

/-- Initialization, given all calls and an invariant that the marks of the class itself leave too. -/
theorem initializeClass_followed_of_calls
    (hmark : ∀ {m : Machine} (s : InitState), I m → I (m.updateClasses (·.setState d.cls s)))
    (hcall : ∀ c i args, d.Followed I (execute c i args) (execute' c i args)) (c : ClassRef) :
    d.Followed I (Run.initializeClass execute c) (Run.initializeClass execute' c) := by
  refine .seq fun m => initializeLineage_followed (fun c i args _ => hcall c i args) ?_ _
  intro supers hsupers m hm _ o ho
  have hbody : d.Followed I (Run.initializeBody execute d.cls supers)
      (Run.initializeBody execute' d.cls supers) := by
    unfold Run.initializeBody
    infer_instance
  obtain ⟨ho', hI'⟩ := hbody.rel _ (hmark .initializing hm) o ho
  exact ⟨ho', hmark _ hI'⟩

end Initialization

/-! ### An abstaining run is a run -/

section Running

variable {execute execute' : Execute}
variable [he : ∀ c i args, d.Followed I (execute c i args) (execute' c i args)]

instance run_bar_followed (c : ClassRef) (i : Nat) (args : List Value) :
    d.Followed I (d.bar execute c i args) (execute' c i args) := by
  unfold bar
  split <;> infer_instance

variable [hinit : ∀ c, d.Followed I (Run.initializeClass execute c) (Run.initializeClass execute' c)]

instance run_request_followed (r : Request) : d.Followed I (d.request execute r) (r.run execute') := by
  have hrun : d.Followed I (r.run execute) (r.run execute') := inferInstance
  cases r with
  | performInitializer c =>
    rw [request, Request.run]
    split <;> infer_instance
  | newInstance =>
    rw [request, Request.run, Run.newInstance]
    infer_instance
  | callStatic =>
    rw [request, Request.run, Run.callStatic]
    infer_instance
  | callVirtual =>
    rw [request, Request.run]
    infer_instance
  | callSpecial =>
    rw [request, Request.run]
    infer_instance
  | callDirect =>
    rw [request, Request.run]
    infer_instance
  | directlyOn =>
    rw [request, Request.run]
    infer_instance
  | _ => exact hrun

instance run_plan_followed (p : Plan) : d.Followed I (d.plan execute p) (p.run execute') := by
  induction p with
  | finish result => exact .resume result
  | request r next ih =>
    rw [plan, Plan.run]
    infer_instance
  | look next ih =>
    rw [plan, Plan.run]
    infer_instance
  | note e next ih =>
    rw [plan, Plan.run]
    infer_instance

instance run_notify_followed (atEntry : Bool) (h : Handler) (c : ClassRef) :
    d.Followed I (d.notify execute atEntry h c) ((h.classInitializing c).run execute') := by
  unfold notify
  split
  · split
    · split <;> infer_instance
    · infer_instance
  · infer_instance

theorem step_of_not_calls (execute : Execute) (atEntry : Bool) (handlers : Handlers)
    {i : Instruction} (h : i.calls = false) :
    d.step execute atEntry handlers i = Act.step execute handlers i := by
  cases i with
  | invoke => cases h
  | simple op =>
    cases op with
    | methodInvoked => cases h
    | classInitializing => cases h
    | _ => rfl
  | _ => rfl

instance run_step_followed (atEntry : Bool) (handlers : Handlers) (i : Instruction) :
    Act.Related (d.following I) (d.step execute atEntry handlers i)
      (Act.step execute' handlers i) := by
  cases hi : i.calls with
  | false =>
    rw [d.step_of_not_calls execute atEntry handlers hi]
    exact Act.step_related_of_not_calls handlers hi
  | true =>
    cases i with
    | invoke kind index =>
      rw [step, Act.step, invoke, Act.invoke]
      infer_instance
    | simple op =>
      cases op with
      | methodInvoked =>
        rw [step, Act.step, Act.simple, methodInvoked, Act.methodInvoked]
        infer_instance
      | classInitializing =>
        rw [step, Act.step, Act.simple, classInitializing, Act.classInitializing]
        infer_instance
      | _ => cases hi
    | _ => cases hi

end Running

theorem runUnder_id_eq (lapse : Run Value) (handlers : Handlers) (execute : Execute)
    (owner : String) (k : LoadedMethod) (fuel : Nat) (f : Frame) :
    Frame.runUnder id lapse handlers execute owner k fuel f =
      Frame.runBy (Act.step execute handlers) lapse owner k fuel f := by
  induction fuel generalizing f with
  | zero => rfl
  | succ fuel ih =>
    rw [Frame.runUnder, Frame.runBy]
    cases k.code[f.pc]? with
    | none => rfl
    | some i =>
      refine bind_congr ?_
      rintro ⟨_ | v, f'⟩
      · exact ih f'
      · rfl

variable {lapse : Run Value} {handlers : Handlers}

/-- **An abstaining run is a run.** The induction is on the fuel. -/
theorem executeUnder_followed
    (hmark : ∀ {m : Machine} (s : InitState), I m → I (m.updateClasses (·.setState d.cls s)))
    (hlapse : d.Followed I lapse lapse) (fuel : Nat) (c : ClassRef) (i : Nat) (args : List Value) :
    d.Followed I (d.abstaining lapse handlers fuel c i args)
      (executeUnder id lapse handlers fuel c i args) := by
  induction fuel generalizing c i args with
  | zero => exact hlapse
  | succ fuel ih =>
    have hinit := initializeClass_followed_of_calls hmark ih
    rw [abstaining, executeUnder]
    refine enterBy_followed (fun owner k f => ?_) c i args
    rw [runUnder_id_eq]
    exact runBy_followed (fun _ => inferInstance) hlapse owner k fuel f

/-! ### Apart from turns -/

/-- Two ways to execute methods of which the second follows the first, apart from the entry and the
body. -/
class Apart (d : Deferral) (I : Machine → Prop) [d.Kept I] (execute execute' : Execute) : Prop where
  call : ∀ c i args, d.Followed I (d.bar execute c i args) (d.bar execute' c i args)
  init : ∀ lineage, d.Followed I (Run.initializeLineage execute lineage)
    (Run.initializeLineage execute' lineage)

section Apart

variable {execute execute' : Execute}

theorem call_followed
    (h : ∀ c i args, d.Followed I (d.bar execute c i args) (d.bar execute' c i args))
    {c : ClassRef} (hc : c ≠ d.cls) (i : Nat) (args : List Value) :
    d.Followed I (execute c i args) (execute' c i args) := by
  have hcall := h c i args
  rwa [bar, bar, if_neg fun hself => hc hself.1, if_neg fun hself => hc hself.1] at hcall

variable [h : d.Apart I execute execute']

instance bar_followed (c : ClassRef) (i : Nat) (args : List Value) :
    d.Followed I (d.bar execute c i args) (d.bar execute' c i args) :=
  h.call c i args

instance initializeClass_followed (c : ClassRef) :
    d.Followed I (Run.initializeClass execute c) (Run.initializeClass execute' c) :=
  .seq fun m => h.init (m.classes.lineage c)

theorem performInitializer_followed {c : ClassRef} (hc : c ≠ d.cls) :
    d.Followed I (Run.performInitializer execute c) (Run.performInitializer execute' c) := by
  refine .seq fun m => ?_
  dsimp only
  split
  · infer_instance
  split
  · next i _ =>
    have hcall := call_followed h.call hc i []
    infer_instance
  · infer_instance

instance request_followed (r : Request) : d.Followed I (d.request execute r) (d.request execute' r) := by
  cases r with
  | performInitializer c =>
    rw [request, request]
    by_cases hc : c = d.cls
    · rw [if_pos hc, if_pos hc]
      infer_instance
    · have hperform : d.Followed I (Run.performInitializer execute c)
          (Run.performInitializer execute' c) := performInitializer_followed hc
      rw [if_neg hc, if_neg hc]
      infer_instance
  | _ =>
    simp only [request, Request.run]
    infer_instance

instance plan_followed (p : Plan) : d.Followed I (d.plan execute p) (d.plan execute' p) := by
  induction p with
  | finish result => exact .resume result
  | request r next ih =>
    rw [plan, plan]
    infer_instance
  | look next ih =>
    rw [plan, plan]
    infer_instance
  | note e next ih =>
    rw [plan, plan]
    infer_instance

instance notify_followed (h : Handler) (c : ClassRef) :
    d.Followed I (d.notify execute false h c) (d.notify execute' false h c) := by
  unfold notify
  split
  · exact outOfFuel_followed _
  · infer_instance

instance step_followed (handlers : Handlers) (i : Instruction) :
    Act.Related (d.following I) (d.step execute false handlers i)
      (d.step execute' false handlers i) := by
  cases hi : i.calls with
  | false =>
    rw [d.step_of_not_calls execute false handlers hi, d.step_of_not_calls execute' false handlers hi]
    exact Act.step_related_of_not_calls handlers hi
  | true =>
    cases i with
    | invoke kind index =>
      rw [step, step, invoke, invoke]
      infer_instance
    | simple op =>
      cases op with
      | methodInvoked =>
        rw [step, step, methodInvoked, methodInvoked]
        infer_instance
      | classInitializing =>
        rw [step, step, classInitializing, classInitializing]
        infer_instance
      | _ => cases hi
    | _ => cases hi

theorem enter_followed (hlapse : d.Followed I lapse lapse) (fuel : Nat) (c : ClassRef) (i : Nat)
    (args : List Value) :
    d.Followed I (d.enter execute false lapse handlers fuel c i args)
      (d.enter execute' false lapse handlers fuel c i args) :=
  enterBy_followed (fun owner k f =>
    runBy_followed (fun i => step_followed handlers i) hlapse owner k fuel f) c i args

end Apart

/-! ### No turns -/

/-- Executions that are as abstaining ones are, apart from the entry and the body. -/
structure Regular (d : Deferral) (lapse : Run Value) (handlers : Handlers) (X : Nat → Execute) :
    Prop where
  zero : X 0 = fun _ _ _ => lapse
  succ : ∀ fuel c i args, ¬(c = d.cls ∧ (i = d.entry ∨ i = d.body)) →
    X (fuel + 1) c i args = d.enter (X fuel) false lapse handlers fuel c i args

theorem regular_abstaining : d.Regular lapse handlers (d.abstaining lapse handlers) := by
  refine ⟨rfl, fun fuel c i args h => ?_⟩
  have hentry : ¬(c = d.cls ∧ i = d.entry) := fun hself => h ⟨hself.1, .inl hself.2⟩
  show d.enter _ (decide (c = d.cls ∧ i = d.entry)) lapse handlers fuel c i args = _
  rw [decide_eq_false hentry]

theorem regular_deferring (turn : Nat → List Value → Run Value) :
    d.Regular lapse handlers (d.deferring lapse handlers turn) := by
  refine ⟨rfl, fun fuel c i args h => ?_⟩
  have hentry : ¬(c = d.cls ∧ i = d.entry) := fun hself => h ⟨hself.1, .inl hself.2⟩
  have hbody : ¬(c = d.cls ∧ i = d.body) := fun hself => h ⟨hself.1, .inr hself.2⟩
  exact (if_neg hentry).trans (if_neg hbody)

variable {X Y : Nat → Execute}

/-- Regular executions follow each other, apart from the entry and the body, if they initialize
classes alike. The induction is on the fuel. -/
theorem Regular.apart (hX : d.Regular lapse handlers X) (hY : d.Regular lapse handlers Y)
    (hlapse : d.Followed I lapse lapse)
    (hinit : ∀ fuel, (∀ c i args, d.Followed I (d.bar (X fuel) c i args) (d.bar (Y fuel) c i args)) →
      ∀ lineage, d.Followed I (Run.initializeLineage (X fuel) lineage)
        (Run.initializeLineage (Y fuel) lineage))
    (fuel : Nat) : d.Apart I (X fuel) (Y fuel) := by
  have hcall : ∀ c i args, d.Followed I (d.bar (X fuel) c i args) (d.bar (Y fuel) c i args) := by
    induction fuel with
    | zero =>
      intro c i args
      rw [hX.zero, hY.zero, bar]
      split
      · exact outOfFuel_followed _
      · exact hlapse
    | succ fuel ih =>
      intro c i args
      have hapart : d.Apart I (X fuel) (Y fuel) := ⟨ih, hinit fuel ih⟩
      rw [bar, bar]
      split
      · exact outOfFuel_followed _
      · next hself =>
        rw [hX.succ fuel c i args hself, hY.succ fuel c i args hself]
        exact enter_followed hlapse fuel c i args
  exact ⟨hcall, hinit fuel hcall⟩

/-- **No turns.** Where the initialization of the class has been begun, it makes no difference what
is in place of the entry. -/
theorem Regular.apart_of_begun (hX : d.Regular lapse handlers X) (hY : d.Regular lapse handlers Y)
    (hlapse : d.Followed I lapse lapse)
    (hbegun : ∀ m : Machine, I m → (m.cls d.cls).state ≠ .uninitialized) (fuel : Nat) :
    d.Apart I (X fuel) (Y fuel) := by
  refine hX.apart hY hlapse (fun fuel hcall => ?_) fuel
  exact initializeLineage_followed (fun c i args hc => call_followed hcall hc i args)
    fun _ _ m hm hc => absurd hc (hbegun m hm)

end Deferral

end Interpose
