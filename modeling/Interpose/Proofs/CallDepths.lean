import Interpose.Proofs.Fuel
/-!
# Call depths

No instruction looks at how deep calls are nested. So a run that the limit is nothing to does the
same at any depth, unless a handler makes a difference. A handler could: its plans see the machine,
the call depth included.

The limit is nothing to a run that never gets to it. That is put in terms of outcomes, since a run
need not end: the run comes to what it comes to with the limit lifted, and to nothing else. A run that
ends without having got to the limit is one that ends where calls at the limit have no outcome, and it
is clear of the limit.

## Main definitions

* `Plan.IgnoresDepth`, `Handler.IgnoresDepth`
* `Simulation.acrossDepths`: one machine at two depths
* `ClearOfLimit`: runs that the limit is nothing to

## Main results

* `Simulation.handlersSim_acrossDepths`, `Simulation.executeBy_acrossDepths`
* `ClearOfLimit.of_comesTo`, with `ComesTo.executeBy_of_lapsing`: runs that end before the limit
-/

namespace Interpose

/-! ### Handlers that do not ask for the depth -/

/-- Whatever a plan does after a look at the machine, it does at any depth. -/
def Plan.IgnoresDepth : Plan → Prop
  | .finish _ => True
  | .request _ next => ∀ result, (next result).IgnoresDepth
  | .look next => ∀ m, (∀ d, next (m.atDepth d) = next m) ∧ (next m).IgnoresDepth
  | .note _ next => next.IgnoresDepth

/-- A handler that decides the same at any depth. -/
structure Handler.IgnoresDepth (h : Handler) : Prop where
  callsDirectly : ∀ m d v, h.callsDirectly (m.atDepth d) v = h.callsDirectly m v
  classInitializing : ∀ c, (h.classInitializing c).IgnoresDepth
  methodInvoked : ∀ call, (h.methodInvoked call).IgnoresDepth

namespace Simulation

/-! ### One machine at two depths -/

/-- One machine at two depths. With the same fuel, the second computation has an outcome exactly if
the first does. -/
def acrossDepths : Simulation where
  rel m n := n = m.atDepth n.depth
  allows _ := True
  mayGiveUp := True
  mayOutlast := False
  strict := False
  eq_atDepth h := h
  sound := False.elim
  change _ _ := rfl
  enter {m n} h := by rw [h]; rfl
  leave {m n} h := by rw [h]; rfl
  allows_of _ := trivial

theorem acrossDepths_lax : acrossDepths.Lax := ⟨not_false, fun _ => trivial, trivial⟩

theorem planSim_acrossDepths {p : Plan} (h : p.IgnoresDepth) : acrossDepths.PlanSim p p := by
  induction p with
  | finish r => exact .finish fun _ _ => trivial
  | request r next ih => exact .request fun result _ => ih result (h result)
  | look next ih =>
    refine .look fun m d _ => ?_
    rw [(h m).1 d]
    exact ih m (h m).2
  | note e next ih => exact .note (ih h)

theorem handlersSim_acrossDepths {handlers : Handlers} (h : ∀ ref, (handlers ref).IgnoresDepth) :
    acrossDepths.HandlersSim handlers where
  callsDirectly ref v m d _ := (h ref).callsDirectly m d v
  classInitializing ref c := planSim_acrossDepths ((h ref).classInitializing c)
  methodInvoked ref call := planSim_acrossDepths ((h ref).methodInvoked call)

end Simulation

/-- Where the limit is lifted, whether a method can be entered is no matter of the machine. -/
theorem Limit.verdict_lifted (k : LoadedMethod) (owner : String) (args : List Value)
    (m n : Machine) :
    Limit.lifted.verdict (k.obstacle? owner args n) =
      Limit.lifted.verdict (k.obstacle? owner args m) := by
  have hverdict : ∀ machine : Machine, Limit.lifted.verdict (k.obstacle? owner args machine) =
      if k.isNative then some (some (.unsatisfiedLink owner k.name k.descriptor))
      else if k.isAbstract then some (some (.abstractMethod owner k.name k.descriptor))
      else if args.length ≠ k.argumentCount then
        some (some (.type (.arity owner k.name k.argumentCount args.length)))
      else some none := by
    intro machine
    unfold LoadedMethod.obstacle?
    split
    · rfl
    split
    · rfl
    split
    · rfl
    split <;> rfl
  rw [hverdict, hverdict]

/-- **Executions at two depths.** -/
theorem Simulation.executeBy_acrossDepths {handlers : Handlers}
    (h : ∀ ref, (handlers ref).IgnoresDepth) (fuel : Nat) :
    acrossDepths.ExecuteSim (executeBy .lifted handlers fuel) (executeBy .lifted handlers fuel) :=
  acrossDepths_lax.executeBy_sim (handlersSim_acrossDepths h)
    (fun m n _ k owner args => ⟨fun _ => trivial, .inl (Limit.verdict_lifted k owner args m n)⟩)
    (.inl rfl)

/-! ### Runs that the limit is nothing to -/

/-- Computations whose outcome does not depend on whether calls at the limit fail or are made all the
same. -/
def ClearOfLimit {α : Type} (x : Limit → Nat → Run α) (m : Machine) : Prop :=
  ∀ o, ComesTo (x .enforced) m o ↔ ComesTo (x .lifted) m o

section Lapsing

variable {α : Type} {x : Limit → Nat → Run α} {handlers : Handlers} {m : Machine}

theorem ClearOfLimit.of_comesTo (hx : ∀ limit, Steady (x limit)) {o : Except VmError α × Machine}
    (h : ∀ limit, ComesTo (x limit) m o) : ClearOfLimit x m := by
  intro o'
  constructor
  · intro h'
    rw [ComesTo.unique (hx .enforced) h' (h .enforced)]
    exact h .lifted
  · intro h'
    rw [ComesTo.unique (hx .lifted) h' (h .lifted)]
    exact h .enforced

/-- A door that lapses at the limit is heeded by any other. -/
theorem Limit.heeds_lapsing (limit : Limit) (obstacle? : Option VmError) :
    Simulation.exactly.Heeds (Limit.lapsing.verdict obstacle?) (limit.verdict obstacle?) := by
  refine ⟨fun _ => trivial, ?_⟩
  cases obstacle? with
  | none => exact .inl (by rw [limit.verdict_none, Limit.verdict_none])
  | some e =>
    cases e with
    | stackOverflow => exact .inr ⟨rfl, trivial⟩
    | _ => cases limit <;> exact .inl rfl

theorem Simulation.executeBy_lapsing (limit : Limit) (handlers : Handlers) (fuel : Nat) :
    exactly.ExecuteSim (executeBy .lapsing handlers fuel) (executeBy limit handlers fuel) := by
  refine exactly_lax.executeBy_sim (handlersSim_exactly handlers) ?_ (.inl rfl)
  rintro m _ rfl k owner args
  exact limit.heeds_lapsing _

/-- A call that ends without any at the limit ends so however the limit is treated. -/
theorem ComesTo.executeBy_of_lapsing {c : ClassRef} {i : Nat} {args : List Value}
    {o : Except VmError Value × Machine}
    (h : ComesTo (fun n => executeBy .lapsing handlers n c i args) m o) (limit : Limit) :
    ComesTo (fun n => executeBy limit handlers n c i args) m o := by
  obtain ⟨fuel, hfuel⟩ := h
  exact ⟨fuel, ((Simulation.executeBy_lapsing limit handlers fuel c i args).eq_of_exactly hfuel).1⟩

/-- The same of a body. -/
theorem ComesTo.run_of_lapsing {owner : String} {k : LoadedMethod} {f : Frame}
    {o : Except VmError Value × Machine}
    (h : ComesTo (fun n => Frame.run handlers (executeBy .lapsing handlers n) owner k n f) m o)
    (limit : Limit) :
    ComesTo (fun n => Frame.run handlers (executeBy limit handlers n) owner k n f) m o := by
  obtain ⟨fuel, hfuel⟩ := h
  exact ⟨fuel, ((Simulation.exactly_lax.run_sim
    (Simulation.executeBy_lapsing limit handlers fuel) (Simulation.handlersSim_exactly handlers)
    owner k (.inl rfl) f).eq_of_exactly hfuel).1⟩

end Lapsing

end Interpose
