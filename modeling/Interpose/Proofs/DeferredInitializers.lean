import Interpose.Proofs.DeferredTurns
/-!
# Static initializers are deferred

Each attempt to initialize a class whose initializer is taken over is marked by its beginning, and
until it is over no other attempt is begun. So no turn is taken meanwhile but the one that is the
attempt's own, behind the superclasses; and when that has succeeded, the class is initialized, and no
attempt is begun any more. That is said of runs that abstain: nothing gets to the initializers of the
class but its initialization. It would not be true of others, which may notify the handler whenever
they like.

Nothing is said about how often an attempt fails, since each failure makes room for another one.

## Main definitions

* `Deferral.attempt`: what is between the two marks
* `Deferral.Settled`: machines from which on no turn is taken
* `Deferral.Reaches`: abstaining requests one after the other

## Main results

* `Deferral.attempt_follows`: attempts
* `Deferral.request_defers_initializer`: runs
-/

namespace Interpose

namespace Deferral

variable {d : Deferral} {file file' : ClassFile} {h : HandlerRef} {m : Machine}
variable {lapse : Run Value} {handlers : Handlers} {execute : Execute}

/-! ### Attempts -/

/-- Machines that have the class, as far in its initialization as is said. -/
structure Stands (d : Deferral) (file file' : ClassFile) (h : HandlerRef) (Q : InitState → Prop)
    (m : Machine) : Prop where
  intercepts : m.Intercepts d.cls file file' h
  state : Q (m.cls d.cls).state

variable {Q : InitState → Prop}

instance kept_stands : d.Kept (d.Stands file file' h Q) where
  retains hm hretains :=
    ⟨hm.intercepts.of_extends hretains.classes, (d.kept_state Q).retains hm.state hretains⟩
  atDepth n hm := ⟨hm.intercepts.of_extends (Machine.extends_atDepth _ n), hm.state⟩
  mark s ha hm :=
    ⟨hm.intercepts.of_extends (Machine.Change.state _ _ s : Machine.Change False _ _).extends,
      (d.kept_state Q).mark s ha hm.state⟩

/-- The class may be marked. -/
theorem Stands.mark (hm : m.Intercepts d.cls file file' h) {s : InitState} (hs : Q s) :
    d.Stands file file' h Q (m.updateClasses (·.setState d.cls s)) := by
  refine ⟨hm.of_extends (Machine.Change.state _ _ s : Machine.Change False _ _).extends, ?_⟩
  rw [Machine.state_setState_self hm.has]
  exact hs

/-- What a run comes to whose fuel ends: nothing, or a failure. -/
def Lapses (lapse : Run Value) : Prop := lapse = Run.outOfFuel ∨ ∃ e, lapse = Run.fail e

theorem Lapses.followed (hlapse : Lapses lapse) {I : Machine → Prop} [d.Kept I] :
    d.Followed I lapse lapse := by
  obtain rfl | ⟨e, rfl⟩ := hlapse
  · exact outOfFuel_followed _
  · exact .fail e

/-- The initializer of the class is its entry. -/
theorem Concerns.runInitializer_apply (hd : d.Concerns file)
    (hm : m.Intercepts d.cls file file' h) :
    Run.runInitializer execute d.cls m =
      (do let _ ← execute d.cls d.entry []; pure () : Run Unit) m := by
  rw [Run.runInitializer, Run.get_bind_apply, hd.declaredMethod?_entry hm]

/-- An attempt to initialize the class: its superclasses first, then a turn. -/
def attempt (d : Deferral) (lapse : Run Value) (handlers : Handlers) (fuel : Nat)
    (execute : Execute) (supers : List ClassRef) : Run Unit := do
  Run.initializeLineage execute supers
  Run.runInitializer (d.deferring lapse handlers (d.takeTurn lapse handlers) fuel) d.cls

/-- **Attempts.** What is between the two marks of the class is an attempt. Its superclasses may be
initialized in any regular way, since no turn is taken meanwhile. -/
theorem attempt_follows (hd : d.Concerns file) (hbinds : d.Binds file (handlers h))
    (hlapse : Lapses lapse) {Z : Nat → Execute} (hZ : d.Regular lapse handlers Z)
    (hm : m.Intercepts d.cls file file' h) (fuel : Nat) (supers : List ClassRef)
    {o : Except VmError Unit × Machine}
    (ho : Run.initializeBody (d.abstaining lapse handlers fuel) d.cls supers (m.begin d.cls) =
      some o) :
    d.attempt lapse handlers fuel (Z fuel) supers (m.begin d.cls) = some o ∧
      o.2.Intercepts d.cls file file' h := by
  let I := d.Stands file file' h (· = .initializing)
  have hapart : d.Apart I (d.abstaining lapse handlers fuel) (Z fuel) :=
    regular_abstaining.apart_of_begun hZ hlapse.followed
      (fun n hn => by rw [hn.state]; rintro ⟨⟩) fuel
  have hturn := turn_followed (I := I) hd hbinds hlapse.followed (fun n hn => hn.intercepts)
    (fun n hn => hn.state) fuel []
  have hinitializer : d.Followed I (Run.runInitializer (d.abstaining lapse handlers fuel) d.cls)
      (Run.runInitializer (d.deferring lapse handlers (d.takeTurn lapse handlers) fuel) d.cls) := by
    refine ⟨fun n hn o ho => ?_⟩
    have hrest : d.Followed I
        (do let _ ← d.abstaining lapse handlers fuel d.cls d.entry []; pure () : Run Unit)
        (do
          let _ ← d.deferring lapse handlers (d.takeTurn lapse handlers) fuel d.cls d.entry []
          pure ()) := inferInstance
    rw [hd.runInitializer_apply hn.intercepts] at ho ⊢
    exact hrest.rel n hn o ho
  have hsupers := hapart.init supers
  have hattempt : d.Followed I (Run.initializeBody (d.abstaining lapse handlers fuel) d.cls supers)
      (d.attempt lapse handlers fuel (Z fuel) supers) := by
    unfold Run.initializeBody attempt
    infer_instance
  obtain ⟨ho', hI⟩ := hattempt.rel _ (Stands.mark hm rfl) o ho
  exact ⟨ho', hI.intercepts⟩

/-- **Deferral.** An abstaining run is one in which the class is initialized by turns, and the body is
executed in turns only. -/
theorem apart_deferring (hd : d.Concerns file) (hbinds : d.Binds file (handlers h))
    (hlapse : Lapses lapse) (fuel : Nat) :
    d.Apart (d.Stands file file' h fun _ => True) (d.abstaining lapse handlers fuel)
      (d.deferring lapse handlers (d.takeTurn lapse handlers) fuel) := by
  refine regular_abstaining.apart (regular_deferring _) hlapse.followed (fun fuel hcall => ?_) fuel
  refine initializeLineage_followed (fun c i args hc => call_followed hcall hc i args) ?_
  intro supers _ m hm _ o ho
  obtain ⟨ho', hintercepts⟩ := attempt_follows hd hbinds hlapse (regular_deferring _) hm.intercepts
    fuel supers ho
  exact ⟨ho', .mark hintercepts trivial⟩

/-! ### Turns that fail -/

/-- A turn leaves the class where it is. -/
theorem takeTurn_keeps (hlapse : Lapses lapse) (hm : m.Intercepts d.cls file file' h) {fuel : Nat}
    {args : List Value} {o : Except VmError Value × Machine}
    (ho : d.takeTurn lapse handlers fuel args m = some o) : o.2.Intercepts d.cls file file' h := by
  rw [takeTurn, Run.get_bind_apply] at ho
  split at ho
  · next hstate =>
    let I := d.Stands file file' h (· = .initializing)
    have hapart : ∀ n, d.Apart I (d.idle lapse handlers n) (d.idle lapse handlers n) := fun n =>
      (regular_deferring _).apart_of_begun (regular_deferring _) hlapse.followed
        (fun n hn => by rw [hn.state]; rintro ⟨⟩) n
    have hbody : d.Followed I (d.executeBody lapse handlers fuel)
        (d.executeBody lapse handlers fuel) := by
      cases fuel with
      | zero => exact hlapse.followed
      | succ fuel =>
        have hself := hapart fuel
        exact enter_followed hlapse.followed fuel d.cls d.body []
    have hdue : d.Followed I (d.due lapse handlers fuel) (d.due lapse handlers fuel) := by
      have hself := hapart fuel
      unfold due
      split <;> infer_instance
    have hlapse' : d.Followed I lapse lapse := hlapse.followed
    have hturn : d.Followed I (d.turnBody lapse handlers fuel) (d.turnBody lapse handlers fuel) := by
      unfold turnBody
      infer_instance
    have henter := enterBy_followed (fun _ _ _ => hturn) d.cls d.entry args
    exact (henter.rel m ⟨hm, hstate⟩ o ho).2.intercepts
  · cases ho

theorem failTurn_apply (hlapse : Lapses lapse) (hm : m.Intercepts d.cls file file' h) {fuel : Nat}
    {args : List Value} {o : Except VmError Value × Machine}
    (ho : d.deferring lapse handlers (d.failTurn lapse handlers) fuel d.cls d.entry args m = some o) :
    (∃ e, o.1 = .error e) ∧ o.2.Intercepts d.cls file file' h := by
  cases fuel with
  | zero =>
    obtain rfl | ⟨e, rfl⟩ := hlapse
    · cases ho
    · cases ho
      exact ⟨⟨e, rfl⟩, hm⟩
  | succ fuel =>
    have hturn : d.deferring lapse handlers (d.failTurn lapse handlers) (fuel + 1) d.cls d.entry args
        = d.failTurn lapse handlers fuel args := if_pos ⟨rfl, rfl⟩
    rw [hturn, failTurn, Run.bind_apply] at ho
    split at ho
    · cases ho
    · cases ho
    · next e n hn =>
      cases ho
      exact ⟨⟨e, rfl⟩, takeTurn_keeps hlapse hm hn⟩

/-- **Turns are needed.** Where no turn succeeds, the class does not get to be initialized. -/
theorem apart_failing (hd : d.Concerns file) (hlapse : Lapses lapse) (fuel : Nat) :
    d.Apart (d.Stands file file' h (· ≠ .initialized))
      (d.deferring lapse handlers (d.failTurn lapse handlers) fuel)
      (d.deferring lapse handlers (d.failTurn lapse handlers) fuel) := by
  refine (regular_deferring _).apart (regular_deferring _) hlapse.followed (fun fuel hcall => ?_) fuel
  refine initializeLineage_followed (fun c i args hc => call_followed hcall hc i args) ?_
  intro supers hsupers m hm _ o ho
  refine ⟨ho, ?_⟩
  rw [Run.initializeBody, Run.bind_apply] at ho
  split at ho
  · cases ho
  · next _ n hn =>
    have hn' := (hsupers.rel _ (.mark hm.intercepts (by rintro ⟨⟩)) _ hn).2.intercepts
    rw [hd.runInitializer_apply hn', Run.bind_apply] at ho
    split at ho
    · cases ho
    · next v k hk =>
      obtain ⟨⟨e, he⟩, -⟩ := failTurn_apply hlapse hn' hk
      cases he
    · next e k hk =>
      cases ho
      exact .mark (failTurn_apply hlapse hn' hk).2 (by rintro ⟨⟩)
  · next e n hn =>
    have hn' := (hsupers.rel _ (.mark hm.intercepts (by rintro ⟨⟩)) _ hn).2.intercepts
    cases ho
    exact .mark hn' (by rintro ⟨⟩)

/-! ### Runs -/

/-- Whatever is done from a machine on, be it a request, a plan or the rest of a method, is done without
a turn, and leaves the class as far in its initialization as it is. -/
structure Settled (d : Deferral) (lapse : Run Value) (handlers : Handlers) (m : Machine) : Prop where
  request : ∀ fuel r o, d.request (d.abstaining lapse handlers fuel) r m = some o →
    d.request (d.idle lapse handlers fuel) r m = some o ∧
      (o.2.cls d.cls).state = (m.cls d.cls).state
  plan : ∀ fuel p o, d.plan (d.abstaining lapse handlers fuel) p m = some o →
    d.plan (d.idle lapse handlers fuel) p m = some o ∧ (o.2.cls d.cls).state = (m.cls d.cls).state
  method : ∀ fuel owner k steps f o,
    Frame.runBy (d.step (d.abstaining lapse handlers fuel) false handlers) lapse owner k steps f m =
        some o →
      Frame.runBy (d.step (d.idle lapse handlers fuel) false handlers) lapse owner k steps f m =
          some o ∧ (o.2.cls d.cls).state = (m.cls d.cls).state

/-- Where the initialization of the class has been begun, there are no turns. -/
theorem settled_of_begun (hlapse : Lapses lapse) (hbegun : (m.cls d.cls).state ≠ .uninitialized) :
    d.Settled lapse handlers m := by
  let I : Machine → Prop := fun n => (n.cls d.cls).state = (m.cls d.cls).state
  have hkept : d.Kept I := d.kept_state (· = (m.cls d.cls).state)
  have hapart : ∀ fuel, d.Apart I (d.abstaining lapse handlers fuel) (d.idle lapse handlers fuel) :=
    regular_abstaining.apart_of_begun (regular_deferring _) hlapse.followed
      fun n (hn : _ = _) => by rwa [hn]
  refine ⟨fun fuel r o ho => ?_, fun fuel p o ho => ?_, fun fuel owner k steps f o ho => ?_⟩
  · exact (request_followed (I := I) (h := hapart fuel) r).rel m rfl o ho
  · exact (plan_followed (I := I) (h := hapart fuel) p).rel m rfl o ho
  · have hstep := fun i => step_followed (I := I) (h := hapart fuel) handlers i
    exact (runBy_followed hstep hlapse.followed owner k steps f).rel m rfl o ho

/-- What becomes of a machine by requests one after the other, all of which abstain. Handlers may
change in between, but for what the handler of the class has bound to it. -/
inductive Reaches (d : Deferral) (file : ClassFile) (h : HandlerRef) : Machine → Machine → Prop
  | refl (m : Machine) : Reaches d file h m m
  | request {m n n' : Machine} {handlers : Handlers} {r : Request} {fuel : Nat}
      {result : Except VmError Value} (before : Reaches d file h m n)
      (binds : d.Binds file (handlers h))
      (run : d.request (d.abstaining Run.outOfFuel handlers fuel) r n = some (result, n')) :
      Reaches d file h m n'

/-- A request leaves the class where it is. -/
theorem request_keeps (hd : d.Concerns file) (hbinds : d.Binds file (handlers h))
    (hlapse : Lapses lapse) (hm : m.Intercepts d.cls file file' h) {fuel : Nat} {r : Request}
    {o : Except VmError Value × Machine}
    (ho : d.request (d.abstaining lapse handlers fuel) r m = some o) :
    d.request (d.deferring lapse handlers (d.takeTurn lapse handlers) fuel) r m = some o ∧
      o.2.Intercepts d.cls file file' h := by
  have hapart : d.Apart (d.Stands file file' h fun _ => True) (d.abstaining lapse handlers fuel)
      (d.deferring lapse handlers (d.takeTurn lapse handlers) fuel) :=
    apart_deferring hd hbinds hlapse fuel
  obtain ⟨ho', hn⟩ := (request_followed (h := hapart) r).rel m ⟨hm, trivial⟩ o ho
  exact ⟨ho', hn.intercepts⟩

theorem Reaches.intercepts {n : Machine} (hreach : d.Reaches file h m n) (hd : d.Concerns file)
    (hm : m.Intercepts d.cls file file' h) : n.Intercepts d.cls file file' h := by
  induction hreach with
  | refl => exact hm
  | request before binds run ih => exact (request_keeps hd binds (.inl rfl) ih run).2

theorem Reaches.state_eq {n : Machine} (hreach : d.Reaches file h m n)
    (hbegun : (m.cls d.cls).state ≠ .uninitialized) :
    (n.cls d.cls).state = (m.cls d.cls).state := by
  induction hreach with
  | refl => rfl
  | request before binds run ih =>
    exact ((settled_of_begun (.inl rfl) (ih ▸ hbegun)).request _ _ _ run).2.trans ih

/-- An abstaining request is a request. -/
theorem run_of_request (hlapse : Lapses lapse) {fuel : Nat} {r : Request}
    {o : Except VmError Value × Machine}
    (ho : d.request (d.abstaining lapse handlers fuel) r m = some o) :
    r.run (executeUnder id lapse handlers fuel) m = some o := by
  let I : Machine → Prop := fun _ => True
  have hkept : d.Kept I := ⟨fun _ _ => trivial, fun _ _ => trivial, fun _ _ _ => trivial⟩
  have hcall : ∀ c i args, d.Followed I (d.abstaining lapse handlers fuel c i args)
      (executeUnder id lapse handlers fuel c i args) :=
    executeUnder_followed (fun _ _ => trivial) hlapse.followed fuel
  have hinit := initializeClass_followed_of_calls (d := d) (I := I) (fun _ _ => trivial) hcall
  exact ((run_request_followed r : d.Followed I _ _).rel m trivial o ho).1

/-- **Deferral**, for a class file that declares one static initializer, and nothing under the name
that it is given, wherever abstaining requests have led. An abstaining request is a request; it comes
to what it comes to where the body is never executed, and what is due is done in turns only. If the
initialization of the class had been begun before all these requests, it has remained as far as it
was, and nothing that is done from here on takes a turn. An attempt to initialize the class, be it for
its own sake or that of a subclass, lets its superclasses be initialized without a turn, takes one
turn, and leaves the class initialized exactly if that comes to a success. And where turns that succeed
have no outcome, no request leaves the class initialized that has not been. -/
theorem request_defers_initializer {n : Machine} (hd : d.Concerns file)
    (hm : m.Intercepts d.cls file file' h) (hreach : d.Reaches file h m n)
    (hbinds : d.Binds file (handlers h)) (hlapse : Lapses lapse) (fuel : Nat) :
    (∀ r o, d.request (d.abstaining lapse handlers fuel) r n = some o →
      r.run (executeUnder id lapse handlers fuel) n = some o ∧
      d.request (d.deferring lapse handlers (d.takeTurn lapse handlers) fuel) r n = some o) ∧
    ((m.cls d.cls).state ≠ .uninitialized →
      (n.cls d.cls).state = (m.cls d.cls).state ∧ d.Settled lapse handlers n) ∧
    ((n.cls d.cls).state = .uninitialized → ∀ supers result n',
      Run.initializeLineage (d.abstaining lapse handlers fuel) (d.cls :: supers) n =
          some (result, n') →
        ∃ k, d.attempt lapse handlers fuel (d.idle lapse handlers fuel) supers (n.begin d.cls) =
            some (result, k) ∧ n' = k.finish d.cls result) ∧
    ((n.cls d.cls).state ≠ .initialized → ∀ r o,
      d.request (d.deferring lapse handlers (d.failTurn lapse handlers) fuel) r n = some o →
        (o.2.cls d.cls).state ≠ .initialized) := by
  have hn := hreach.intercepts hd hm
  refine ⟨fun r o ho => ⟨run_of_request hlapse ho, (request_keeps hd hbinds hlapse hn ho).1⟩,
    fun hbegun => ?_, fun hbegin supers result n' ho => ?_, fun hstate r o ho => ?_⟩
  · have hsame := hreach.state_eq hbegun
    exact ⟨hsame, settled_of_begun hlapse (hsame ▸ hbegun)⟩
  · rw [Run.initializeLineage_apply supers hbegin] at ho
    split at ho
    · cases ho
    · next k hbody =>
      cases ho
      exact ⟨_, (attempt_follows hd hbinds hlapse (regular_deferring _) hn fuel _ hbody).1, rfl⟩
  · have hapart : d.Apart (d.Stands file file' h (· ≠ .initialized))
        (d.deferring lapse handlers (d.failTurn lapse handlers) fuel)
        (d.deferring lapse handlers (d.failTurn lapse handlers) fuel) :=
      apart_failing hd hlapse fuel
    exact ((request_followed (h := hapart) r).rel n ⟨hn, hstate⟩ o ho).2.state

end Deferral

/-! ### A class that is initialized late -/

/-- A class file with a static initializer, and with a method that gives notice of the class's
initialization another time. -/
def lateFile : ClassFile where
  name := "t.Late"
  constants := { classes := ["t.Late"] }
  methods :=
    [⟨"<clinit>", "()V", Modifier.static.bit, [], 0, Code.encode [.simple .retVoid]⟩,
      ⟨"again", "()V", Modifier.visible.bit ||| Modifier.static.bit, [], 0,
        Code.encode [.constClass 0, .simple .classInitializing, .simple .retVoid]⟩]

/-- The instrumented form of that file. -/
def deferredLateFile : ClassFile := lateFile.transform.toOption.getD default

/-- The class of that form, whose handler is the first. -/
def deferredLate : LoadedClass :=
  (LoadedClass.define ⟨⟨0⟩, false, true, some ⟨0⟩⟩ none deferredLateFile).toOption.getD default

/-- A machine with that class. -/
def lateMachine : Machine where
  realm := {
    classes := ⟨#[deferredLate]⟩
    loaders := #[{ kind := .bootstrap, classes := [("t.Late", ⟨0⟩)] }]
    resources := {} }
  entry := ⟨0⟩

/-- An override that notes that it is done. -/
def noteOverride (c : ClassRef) : Plan := .note (.substitutedInit "s" c) (.answer .null)

/-- Wranglers that call through, with the override bound to the class. -/
def lateWranglers : Handlers := fun _ =>
  ((Wrangler.new { callThrough := true }).bind "t.Late"
    { name := "s", staticInitializer? := some noteOverride }).handler

/-- Where the initializers of the class stand. -/
def lateDeferral : Deferral := ⟨⟨0⟩, 2, 0, some noteOverride⟩

theorem lateMachine_intercepts :
    lateMachine.Intercepts ⟨0⟩ lateFile deferredLateFile ⟨0⟩ where
  transform := by decide +kernel
  fits := by decide +kernel
  define := ⟨⟨⟨0⟩, false, true, some ⟨0⟩⟩, none, deferredLate, rfl, rfl, by decide +kernel, rfl⟩

theorem lateDeferral_concerns : lateDeferral.Concerns lateFile where
  declares := ⟨_, rfl, rfl, rfl⟩
  unique := by
    rintro (_ | _ | i) e he hname
    · rfl
    · cases he
      exact absurd hname (by decide)
    · cases he
  unclaimed := by decide
  entry_eq := rfl

/-- The override is done in a turn. -/
theorem lateMachine_defers :
    ∃ n, (Request.initializeClass ⟨0⟩).run (executeUnder id Run.outOfFuel lateWranglers 5)
        lateMachine = some (.ok .null, n) ∧
      (n.cls ⟨0⟩).state = .initialized ∧ n.journal = #[.substitutedInit "s" ⟨0⟩] ∧
      lateDeferral.request (lateDeferral.deferring Run.outOfFuel lateWranglers
        (lateDeferral.takeTurn Run.outOfFuel lateWranglers) 5) (.initializeClass ⟨0⟩) lateMachine =
          some (.ok .null, n) := by
  let n : Machine :=
    { (lateMachine.begin ⟨0⟩).finish ⟨0⟩ (.ok ()) with journal := #[.substitutedInit "s" ⟨0⟩] }
  have hrun : lateDeferral.request (lateDeferral.abstaining Run.outOfFuel lateWranglers 5)
      (.initializeClass ⟨0⟩) lateMachine = some (.ok .null, n) := by decide +kernel
  have hbinds : lateDeferral.Binds lateFile (lateWranglers ⟨0⟩) := ⟨_, rfl, rfl⟩
  obtain ⟨hreal, hturns⟩ := (Deferral.request_defers_initializer lateDeferral_concerns
    lateMachine_intercepts (.refl _) hbinds (.inl rfl) 5).1 _ _ hrun
  exact ⟨n, hreal, by decide +kernel, rfl, hturns⟩

/-- A class file that declares a method under the name that its static initializer, which fails, is
given. -/
def twinFile : ClassFile where
  name := "t.Twin"
  methods :=
    [⟨"<clinit>", "()V", Modifier.static.bit, [], 0, Code.encode [.simple .constNull, .simple .raise]⟩,
      ⟨"__staticInitializer__", "()V", Modifier.static.bit, [], 0, Code.encode [.simple .retVoid]⟩]

/-- The class of the instrumented form, whose handler is the first. -/
def deferredTwin : LoadedClass :=
  (LoadedClass.define ⟨⟨0⟩, false, true, some ⟨0⟩⟩ none
    (twinFile.transform.toOption.getD default)).toOption.getD default

/-- A machine with that class. -/
def twinMachine : Machine where
  realm := { classes := ⟨#[deferredTwin]⟩, resources := {} }
  entry := ⟨0⟩

/-- Wranglers without shadows, which do not call through. -/
def silentWranglers : Handlers := fun _ => (Wrangler.new {}).handler

/-- An override is done twice, though it has succeeded, where a method notifies the handler that is not
the entry. And a class is initialized without its static initializer, which would have failed, where
another method has the name that this is given. -/
theorem initializer_not_always_deferred :
    ((Request.callStatic "t.Late" "again" "()V" []).run (executeWith lateWranglers 40)
        lateMachine).map (·.2.journal) =
      some #[.substitutedInit "s" ⟨0⟩, .substitutedInit "s" ⟨0⟩] ∧
    ((Request.initializeClass ⟨0⟩).run (executeWith silentWranglers 40) twinMachine).map
        (fun o => (o.2.cls ⟨0⟩).state) = some .initialized ∧
    (executeWith silentWranglers 40 ⟨0⟩ 0 [] twinMachine).map (·.1) =
      some (.error (.thrown .null)) := by
  decide +kernel

end Interpose
