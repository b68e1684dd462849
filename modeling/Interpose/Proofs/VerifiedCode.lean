import Interpose.Proofs.Methods
/-!
# Verified code meets no fault

Classes are verified before they are defined. So no step of any run of the interpreter takes an
operand from an empty stack, leaves a body at its end, or has an operand that names nothing, whatever
the heap and the arguments are and however calls and handlers are nested.

To say this of every step, and not only of the outcome of a run, runs are *watched*: in a watched
run a fault at a step leaves no outcome at all, and no handler gets to see it. The end of the fuel,
on the other hand, is an ordinary failure there. A watched run has an outcome, then, exactly if no
fault occurs, and it is the outcome of the run wherever the run has one.

Handlers are taken to be *honest*: they do not make up faults. A handler that hands on the failure of
a request is honest.

## Main definitions

* `Run.faultless`, `watched`
* `Plan.Honest`, `Handler.Honest`

## Main results

* `request_meets_no_fault`: every run that a request starts
* `Machine.Sound.request`: requests keep machines sound
-/

namespace Interpose

/-! ### Watched runs -/

/-- A computation that has no outcome if it ends with a fault of the code. -/
def Run.faultless {α : Type} (x : Run α) : Run α := fun m =>
  match x m with
  | none => none
  | some (.ok a, n) => some (.ok a, n)
  | some (.error e, n) => if e.isCodeFault then none else some (.error e, n)

/-- Runs a body, each of its steps under a guard, and does `lapse` at the end of the fuel. -/
def Frame.runUnder (guard : {α : Type} → Run α → Run α) (lapse : Run Value) (handlers : Handlers)
    (execute : Execute) (owner : String) (m : LoadedMethod) : Nat → Frame → Run Value
  | 0, _ => lapse
  | fuel + 1, f =>
    match m.code[f.pc]? with
    | none => guard (Run.fail (.type (.pastEnd owner m.name)))
    | some i => do
      match ← guard (Act.step execute handlers i { f with pc := f.pc + 1 }) with
      | (some result, _) => return result
      | (none, f) => Frame.runUnder guard lapse handlers execute owner m fuel f

/-- Executes methods under a guard. -/
def executeUnder (guard : {α : Type} → Run α → Run α) (lapse : Run Value) (handlers : Handlers) :
    Nat → Execute
  | 0 => fun _ _ _ => lapse
  | fuel + 1 =>
    Run.enterBy .enforced fun owner m f =>
      Frame.runUnder guard lapse handlers (executeUnder guard lapse handlers fuel) owner m fuel f

/-- Executes methods, no fault of the code permitted. -/
def watched (handlers : Handlers) (fuel : Nat) : Execute :=
  executeUnder Run.faultless (Run.fail .stackOverflow) handlers fuel

theorem Frame.runUnder_id (handlers : Handlers) (execute : Execute) (owner : String)
    (m : LoadedMethod) (fuel : Nat) (f : Frame) :
    Frame.runUnder id Run.outOfFuel handlers execute owner m fuel f =
      Frame.run handlers execute owner m fuel f := by
  induction fuel generalizing f with
  | zero => rfl
  | succ fuel ih =>
    rw [Frame.runUnder, Frame.run]
    cases m.code[f.pc]? with
    | none => rfl
    | some i =>
      refine bind_congr ?_
      rintro ⟨_ | v, f'⟩
      · exact ih f'
      · rfl

/-- Without a guard, and giving up at the end of the fuel, that is how methods are executed. -/
theorem executeUnder_id (handlers : Handlers) (fuel : Nat) :
    executeUnder id Run.outOfFuel handlers fuel = executeWith handlers fuel := by
  induction fuel with
  | zero => rfl
  | succ fuel ih =>
    rw [executeUnder, executeWith, Run.enter_eq, ih]
    funext c i args
    congr 1
    funext owner m f
    exact Frame.runUnder_id handlers _ owner m fuel f

/-! ### Simulations of guarded runs -/

section Guards

variable {S : Simulation} {handlers : Handlers}
variable {guard guard' : {α : Type} → Run α → Run α} {lapse lapse' : Run Value}

/-- Whatever is simulated is simulated under two guards. -/
def Guarded (S : Simulation) (guard guard' : {α : Type} → Run α → Run α) : Prop :=
  ∀ {α β : Type} {Q : α → β → Prop} {x : Run α} {y : Run β}, S.Sim Q x y →
    S.Sim Q (guard x) (guard' y)

theorem View.runUnder_sim {V : View S} {execute execute' : Execute} {depthAt : Nat → Option Nat}
    {returnsVoid : Bool} {owner : String} {m : LoadedMethod} (hk : V.known)
    (he : S.ExecuteSim execute execute') (hh : S.HandlersSim handlers)
    (hc : V.Carries m.code m.code depthAt returnsVoid) (hg : Guarded S guard guard')
    (hl : S.Sim Eq lapse lapse') (hv : V.offset = 0 ∧ V.base = []) (fuel : Nat) {f : Frame}
    (hf : V.Placed depthAt f) :
    S.Sim Eq (Frame.runUnder guard lapse handlers execute owner m fuel f)
      (Frame.runUnder guard' lapse' handlers execute' owner m fuel f) := by
  induction fuel generalizing f with
  | zero => exact hl
  | succ fuel ih =>
    obtain ⟨n, hn, -⟩ := hf hk
    obtain ⟨i, -, hi, -⟩ := hc.typed hk f.pc n hn
    obtain ⟨-, hstep⟩ := next_sim he hh hc hf hi
    rw [hv.1, mapTarget_add_zero, V.shift_of_empty hv] at hstep
    rw [Frame.runUnder, Frame.runUnder, hi]
    refine (hg hstep).bind ?_
    rintro ⟨_ | v, f'⟩ ⟨_, _⟩ ⟨rfl, rfl, -, hplaced⟩
    · rw [V.shift_of_empty hv]
      exact ih (hplaced rfl)
    · exact Simulation.Sim.pure rfl

/-- **Guarded runs.** In a strict simulation of machines at one call depth, every method of the
table is entered alike, and its body is typed. -/
theorem executeUnder_sim (hs : S.strict) (heq : ∀ m n, S.rel m n → n = m)
    (hh : S.HandlersSim handlers) (hg : ∀ start, Guarded (S.since start) guard guard')
    (hl : S.Sim Eq lapse lapse') (fuel : Nat) :
    S.ExecuteSim (executeUnder guard lapse handlers fuel)
      (executeUnder guard' lapse' handlers fuel) := by
  induction fuel with
  | zero => exact fun _ _ _ => hl
  | succ fuel ih =>
    refine Simulation.enterBy_sim (fun m n hr k owner args => ⟨nofun, .inl ?_⟩) ?_
    · rw [heq m n hr]
    intro start n c i m args hr hm hverdict
    obtain ⟨hn, ha, hargs⟩ := LoadedMethod.of_verdict hverdict
    have hc : start.classes.Has c := ClassTable.has_of_get_ne fun hd => by
      rw [Machine.cls, hd] at hm
      exact nomatch hm
    obtain ⟨depthAt, htyped⟩ := (S.sound hs hr).founded.exists_wellTyped hm hn ha
    exact View.runUnder_sim (V := LoadedMethod.activation S start c hc m) trivial (ih.since start)
      (hh.since start) htyped.carries (hg start) (hl.since start)
      ⟨rfl, rfl⟩ fuel (htyped.placed hargs)

end Guards

/-! ### Honest handlers -/

/-- A result that is no fault of the code. -/
def Proper {α : Type} (r : Except VmError α) : Prop := ∀ e, r = .error e → e.isCodeFault = false

/-- A plan that ends with a fault of the code only if a request has answered it with one. What it
does where the classes are not sound is of no account. -/
inductive Plan.Honest : Plan → Prop
  | finish {r : Except VmError Value} (h : Proper r) : Honest (.finish r)
  | request {r : Request} {next : Except VmError Value → Plan}
    (h : ∀ result, Proper result → Honest (next result)) : Honest (.request r next)
  | look {next : Machine → Plan} (h : ∀ m : Machine, m.realm.Sound → Honest (next m)) :
    Honest (.look next)
  | note {e : Event} {next : Plan} (h : Honest next) : Honest (.note e next)

/-- A handler whose plans are honest. -/
structure Handler.Honest (h : Handler) : Prop where
  classInitializing : ∀ c, (h.classInitializing c).Honest
  methodInvoked : ∀ call, (h.methodInvoked call).Honest

/-- Handing on what a request answers. -/
theorem Plan.honest_ask (r : Request) : (Plan.ask r).Honest := .request fun _ h => .finish h

theorem Handler.honest_default : (default : Handler).Honest :=
  ⟨fun c => Plan.honest_ask (.performInitializer c), fun call => Plan.honest_ask (.callDirect call)⟩

/-! ### No faults -/

namespace Simulation

/-- One machine of a sound realm, on both sides, and no failure that is a fault of the code. Whether
runs may end without an outcome is left open. -/
def honest (mayGiveUp : Prop) : Simulation where
  rel m n := n = m ∧ m.realm.Sound
  allows e := e.isCodeFault = false
  mayGiveUp := mayGiveUp
  mayOutlast := mayGiveUp
  strict := True
  eq_atDepth h := by rw [h.1, Machine.atDepth_depth]
  sound _ _ _ h := h.2
  change := by
    rintro m _ m' ⟨rfl, hm⟩ hc
    refine ⟨?_, hc.sound_realm hm⟩
    rw [← hc.depth_eq, Machine.atDepth_depth]
  enter := by
    rintro m _ ⟨rfl, hm⟩
    exact ⟨rfl, hm⟩
  leave := by
    rintro m _ ⟨rfl, hm⟩
    exact ⟨rfl, hm⟩
  allows_of h := h

theorem planSim_of_honest {mayGiveUp : Prop} {p : Plan} (h : p.Honest) :
    (honest mayGiveUp).PlanSim p p := by
  induction h with
  | finish hr => exact .finish hr
  | request _ ih => exact .request ih
  | look _ ih =>
    refine .look fun m d hr => ?_
    rw [hr.1]
    exact ih m hr.2
  | note _ ih => exact .note ih

theorem handlersSim_of_honest {mayGiveUp : Prop} {handlers : Handlers}
    (h : ∀ ref, (handlers ref).Honest) : (honest mayGiveUp).HandlersSim handlers where
  callsDirectly ref v m d hr := by rw [hr.1]
  classInitializing ref c := planSim_of_honest ((h ref).classInitializing c)
  methodInvoked ref call := planSim_of_honest ((h ref).methodInvoked call)

/-- A computation whose failures are no faults stays as it is when it is watched. -/
theorem faultless_sim {S : Simulation} (hS : ∀ e, S.allows e → e.isCodeFault = false)
    {α β : Type} {Q : α → β → Prop} {x : Run α} {y : Run β} (h : S.Sim Q x y) :
    S.Sim Q x (Run.faultless y) := by
  intro m n hr
  have ho := h m n hr
  unfold Run.faultless
  rcases hx : x m with _ | ⟨e | a, m'⟩ <;> rcases hy : y n with _ | ⟨e' | b, n'⟩ <;>
    rw [hx, hy] at ho <;> dsimp only <;> first | exact ho | exact ho.elim | skip
  · split
    · exact ho.1
    · exact ho
  · obtain ⟨rfl, he, hm⟩ := ho
    rw [hS _ he]
    exact ⟨rfl, he, hm⟩

/-- The same on both sides. -/
theorem faultless_both_sim {S : Simulation} (hS : ∀ e, S.allows e → e.isCodeFault = false)
    {α β : Type} {Q : α → β → Prop} {x : Run α} {y : Run β} (h : S.Sim Q x y) :
    S.Sim Q (Run.faultless x) (Run.faultless y) := by
  intro m n hr
  have ho := faultless_sim hS h m n hr
  have hx : Run.faultless x m = x m := by
    have hxy := h m n hr
    unfold Run.faultless
    cases hxm : x m with
    | none => rfl
    | some p =>
      obtain ⟨e | a, m'⟩ := p
      · have he : S.allows e := by
          rw [hxm] at hxy
          rcases hyn : y n with _ | ⟨e' | b, n'⟩ <;> rw [hyn] at hxy <;>
            first | exact hxy.elim | exact hxy.2.1
        dsimp only
        rw [hS e he]
        rfl
      · rfl
  rw [hx]
  exact ho

end Simulation

/-- **No faults.** Of whatever request, on whatever heap and with whatever arguments: if it is
watched, it comes to an outcome within every amount of fuel, so no step on its way has met a fault;
and where the request itself comes to an outcome, it is that one. -/
theorem request_meets_no_fault {handlers : Handlers} (hh : ∀ ref, (handlers ref).Honest)
    {m : Machine} (hm : m.realm.Sound) (r : Request) (fuel : Nat) :
    (∃ result m', r.run (watched handlers fuel) m = some (result, m') ∧ Proper result ∧
      m'.realm.Sound) ∧
    ∀ result m', r.run (executeWith handlers fuel) m = some (result, m') →
      r.run (watched handlers fuel) m = some (result, m') := by
  constructor
  · let S := Simulation.honest False
    have hlapse : S.Sim Eq (Run.fail .stackOverflow : Run Value) (Run.fail .stackOverflow) :=
      Simulation.Sim.failure rfl
    have hexecute : S.ExecuteSim (watched handlers fuel) (watched handlers fuel) :=
      executeUnder_sim trivial (fun _ _ (hr : S.rel _ _) => hr.1) (Simulation.handlersSim_of_honest hh)
        (fun start => Simulation.faultless_both_sim fun _ he => he) hlapse fuel
    have ho := Simulation.request_sim hexecute r m m ⟨rfl, hm⟩
    rcases hr : r.run (watched handlers fuel) m with _ | ⟨result, m'⟩ <;> rw [hr] at ho
    · exact ho.elim
    · obtain ⟨_, ⟨⟩, hrel, -, hproper⟩ := ho.exists_eq
      exact ⟨result, m', rfl, hproper, hrel.2⟩
  · intro result m' hr
    let S := Simulation.honest True
    have hlapse : S.Sim Eq (Run.outOfFuel : Run Value) (Run.fail .stackOverflow) :=
      fun _ _ _ => ⟨trivial, trivial⟩
    have hexecute : S.ExecuteSim (executeWith handlers fuel) (watched handlers fuel) := by
      rw [← executeUnder_id]
      exact executeUnder_sim trivial (fun _ _ (hr : S.rel _ _) => hr.1) (Simulation.handlersSim_of_honest hh)
        (fun start => Simulation.faultless_sim fun _ he => he) hlapse fuel
    have ho := Simulation.request_sim hexecute r m m ⟨rfl, hm⟩
    rw [hr] at ho
    obtain ⟨n, hn, ⟨rfl, -⟩, -⟩ := ho.exists_eq
    exact hn

/-- A class file with one method, `f()I`, which answers seven. -/
def sevenFile : ClassFile where
  name := "t.Seven"
  methods := [⟨"f", "()I", Modifier.static.bit, [], 0, [0x07, 7, 0, 0, 0, 0xA3]⟩]

/-- The class of that file. -/
def seven : LoadedClass where
  name := "t.Seven"
  loader := ⟨0⟩
  orphan := false
  ancestors := []
  constants := {}
  annotations := []
  methods := [⟨"f", "()I", ⟨[], .int⟩, Modifier.static.bit, 0, #[.constInt 7, .simple .ret]⟩]
  fieldSlots := []
  fieldDefaults := #[]
  staticSlots := []
  statics := #[]
  state := .uninitialized
  instrumented := false
  handler? := none

/-- A realm that has loaded it. -/
def sevenRealm : Realm where
  classes := ⟨#[seven]⟩
  loaders := #[{ kind := .bootstrap, classes := [("t.Seven", ⟨0⟩)] }]
  resources := {}

theorem sevenRealm_sound : sevenRealm.Sound := by
  have hdefine : LoadedClass.define { loader := ⟨0⟩ } none sevenFile = .ok seven := by
    decide +kernel
  have hverify : sevenFile.verify = .ok () := by decide +kernel
  have hsuper : ∀ s, (none : Option ClassRef) = some s → ({} : ClassTable).Has s := by
    rintro _ ⟨⟩
  refine ⟨ClassTable.founded_empty.add hsuper hverify hdefine, ?_⟩
  rintro ⟨_ | l⟩ p hp
  · rw [List.mem_singleton.1 hp]
    exact Nat.zero_lt_one
  · exact absurd hp List.not_mem_nil

/-- A call of that method, on a machine that has loaded it, comes to its answer while it is watched. -/
theorem seven_meets_no_fault :
    ∃ m', (Request.callStatic "t.Seven" "f" "()I" []).run (watched (fun _ => default) 3)
      { realm := sevenRealm, entry := ⟨0⟩ } = some (.ok (.int 7), m') := by
  have hrun : ∃ m', (Request.callStatic "t.Seven" "f" "()I" []).run
      (executeWith (fun _ => default) 3) { realm := sevenRealm, entry := ⟨0⟩ } =
        some (.ok (.int 7), m') := ⟨_, rfl⟩
  obtain ⟨m', hm'⟩ := hrun
  have hhonest : ∀ ref, ((fun _ => default : Handlers) ref).Honest :=
    fun _ => Handler.honest_default
  exact ⟨m', (request_meets_no_fault hhonest sevenRealm_sound _ 3).2 _ _ hm'⟩

/-! ### Sound machines -/

namespace Simulation

/-- One sound machine on both sides. -/
def soundly : Simulation where
  rel m n := n = m ∧ m.Sound
  allows _ := True
  mayGiveUp := True
  mayOutlast := True
  strict := True
  eq_atDepth h := by rw [h.1, Machine.atDepth_depth]
  sound _ _ _ h := h.2.realm
  change := by
    rintro m _ m' ⟨rfl, hm⟩ hc
    refine ⟨?_, hc.sound hm⟩
    rw [← hc.depth_eq, Machine.atDepth_depth]
  enter := by
    rintro m _ ⟨rfl, hm⟩
    exact ⟨rfl, hm.realm, hm.objects⟩
  leave := by
    rintro m _ ⟨rfl, hm⟩
    exact ⟨rfl, hm.realm, hm.objects⟩
  allows_of _ := trivial

theorem planSim_soundly (p : Plan) : soundly.PlanSim p p := by
  induction p with
  | finish r => exact .finish fun _ _ => trivial
  | request r next ih => exact .request fun result _ => ih result
  | look next ih =>
    refine .look fun m d hr => ?_
    rw [hr.1]
    exact ih m
  | note e next ih => exact .note ih

theorem handlersSim_soundly (handlers : Handlers) : soundly.HandlersSim handlers where
  callsDirectly ref v m d hr := by rw [hr.1]
  classInitializing _ _ := planSim_soundly _
  methodInvoked _ _ := planSim_soundly _

theorem executeSim_soundly (handlers : Handlers) (fuel : Nat) :
    soundly.ExecuteSim (executeWith handlers fuel) (executeWith handlers fuel) := by
  have hlapse : soundly.Sim Eq (Run.outOfFuel : Run Value) Run.outOfFuel := fun _ _ _ => trivial
  rw [← executeUnder_id]
  exact executeUnder_sim trivial (fun _ _ (hr : soundly.rel _ _) => hr.1)
    (handlersSim_soundly handlers) (fun _ _ _ _ _ _ h => h) hlapse fuel

end Simulation

/-- **Sound machines.** Whatever handlers do, a request leaves a sound machine sound, with all the
classes it had, and has left every method that it has entered. -/
theorem Machine.Sound.request {m m' : Machine} (hm : m.Sound) {handlers : Handlers} {r : Request}
    {fuel : Nat} {result : Except VmError Value}
    (h : r.run (executeWith handlers fuel) m = some (result, m')) : m'.Sound ∧ m.Evolves m' := by
  have ho := Simulation.request_sim (Simulation.executeSim_soundly handlers fuel) r m m ⟨rfl, hm⟩
  rw [h] at ho
  obtain ⟨_, -, hr, he, -⟩ := ho.exists_eq
  exact ⟨hr.2, he⟩

end Interpose
