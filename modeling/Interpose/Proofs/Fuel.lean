import Interpose.Proofs.Executions
/-!
# Fuel

More fuel never changes an outcome. So a computation *comes to* an outcome if it does so with some
amount of fuel, and there is at most one that it comes to.

How the limit to the depth of calls is treated is left open.

## Main definitions

* `executeBy`: executing methods, the limit treated in one way or another
* `Steady`: computations whose outcome more fuel does not change
* `ComesTo`: outcomes, whatever the fuel

## Main results

* `steady_execute`, `steady_plan`, `steady_run`
* `ComesTo.unique`
* `comesTo_executeBy_iff`: entering a method
-/

namespace Interpose

/-- Executes methods, the limit to the depth of calls treated in one way or another. -/
def executeBy (limit : Limit) (handlers : Handlers) : Nat → Execute
  | 0 => fun _ _ _ => Run.outOfFuel
  | fuel + 1 =>
    Run.enterBy limit fun owner m f =>
      Frame.run handlers (executeBy limit handlers fuel) owner m fuel f

theorem executeBy_enforced (handlers : Handlers) (fuel : Nat) :
    executeBy .enforced handlers fuel = executeWith handlers fuel := by
  induction fuel with
  | zero => rfl
  | succ fuel ih => rw [executeBy, executeWith, Run.enter_eq, ih]

/-! ### Unknown frames -/

section Unknown

variable {S : Simulation} {handlers : Handlers}

/-- A simulation in which anything may happen, the end of the fuel included. -/
structure Simulation.Lax (S : Simulation) : Prop where
  strict : ¬S.strict
  allows : ∀ e, S.allows e
  mayGiveUp : S.mayGiveUp

/-- Amounts of fuel that may be compared. -/
def Simulation.Fuels (S : Simulation) (fuel fuel' : Nat) : Prop :=
  fuel = fuel' ∨ S.mayOutlast ∧ fuel ≤ fuel'

theorem Simulation.Fuels.of_succ {fuel fuel' : Nat} (h : S.Fuels (fuel + 1) fuel') :
    ∃ k, fuel' = k + 1 ∧ S.Fuels fuel k := by
  rcases h with rfl | ⟨hlast, hle⟩
  · exact ⟨fuel, rfl, .inl rfl⟩
  · exact ⟨fuel' - 1, by omega, .inr ⟨hlast, by omega⟩⟩

/-- The view that knows nothing, and changes nothing. -/
def View.blank (h : S.Lax) : View S where
  offset := 0
  base := []
  known := False
  cls := default
  pool := default
  keeps _ := True
  has hs := absurd hs h.strict
  constants_eq := False.elim
  lenient _ := ⟨rfl, h.allows, h.strict⟩

theorem Simulation.Lax.since (h : S.Lax) (start : Machine) : (S.since start).Lax :=
  ⟨h.strict, h.allows, h.mayGiveUp⟩

theorem Simulation.Lax.run_sim (h : S.Lax) {execute execute' : Execute}
    (he : S.ExecuteSim execute execute') (hh : S.HandlersSim handlers) (owner : String)
    (m : LoadedMethod) {fuel fuel' : Nat} (hfuel : S.Fuels fuel fuel') (f : Frame) :
    S.Sim Eq (Frame.run handlers execute owner m fuel f)
      (Frame.run handlers execute' owner m fuel' f) := by
  have hcarries : (View.blank h).Carries m.code m.code (fun _ => none) false :=
    ⟨False.elim, False.elim, fun _ => ⟨rfl, rfl⟩⟩
  have hplaced : (View.blank h).Placed (fun _ => none) f := False.elim
  have hname : ¬(View.blank h).known → owner = owner ∧ m.name = m.name := fun _ => ⟨rfl, rfl⟩
  have hrun := View.run_sim (V := View.blank h) he hh hcarries hname h.mayGiveUp
    hfuel hplaced
  rw [(View.blank h).shift_of_empty ⟨rfl, rfl⟩] at hrun
  exact hrun.mono fun _ _ hr => hr.1

theorem Simulation.Lax.executeBy_sim (h : S.Lax) (hh : S.HandlersSim handlers)
    {limit limit' : Limit}
    (hlimit : ∀ m n, S.rel m n → ∀ (k : LoadedMethod) owner args,
      S.Heeds (limit.verdict (k.obstacle? owner args m)) (limit'.verdict (k.obstacle? owner args n)))
    {fuel fuel' : Nat} (hfuel : S.Fuels fuel fuel') :
    S.ExecuteSim (executeBy limit handlers fuel) (executeBy limit' handlers fuel') := by
  induction fuel generalizing fuel' with
  | zero =>
    rcases hfuel with rfl | ⟨hlast, -⟩
    · exact fun _ _ _ _ _ _ => h.mayGiveUp
    · exact fun _ _ _ _ _ _ => Simulation.outcome_none h.mayGiveUp hlast
  | succ fuel ih =>
    obtain ⟨fuel', rfl, hfuel'⟩ := hfuel.of_succ
    refine Simulation.enterBy_sim hlimit ?_
    intro start n c i m args _ _ _
    exact (h.since start).run_sim ((ih hfuel').since start) (hh.since start) _ m hfuel' _

end Unknown

/-! ### More fuel -/

namespace Simulation

/-- One machine on both sides. -/
def exactly : Simulation where
  rel m n := n = m
  allows _ := True
  mayGiveUp := True
  mayOutlast := True
  strict := False
  eq_atDepth h := by rw [h, Machine.atDepth_depth]
  sound := False.elim
  change := by
    rintro m _ m' rfl hc
    rw [← hc.depth_eq, Machine.atDepth_depth]
  enter := by
    rintro m _ rfl
    rfl
  leave := by
    rintro m _ rfl
    rfl
  allows_of _ := trivial

theorem exactly_lax : exactly.Lax := ⟨not_false, fun _ => trivial, trivial⟩

section Same

variable {S : Simulation}

/-- Plans and handlers cannot tell a machine from itself. -/
theorem planSim_of_eq (hrel : ∀ {m n}, S.rel m n → n = m) (hallows : ∀ e, S.allows e) (p : Plan) :
    S.PlanSim p p := by
  induction p with
  | finish r => exact .finish fun e _ => hallows e
  | request r next ih => exact .request fun result _ => ih result
  | look next ih =>
    refine .look fun m d hr => ?_
    rw [hrel hr]
    exact ih m
  | note e next ih => exact .note ih

theorem handlersSim_of_eq (hrel : ∀ {m n}, S.rel m n → n = m) (hallows : ∀ e, S.allows e)
    (handlers : Handlers) : S.HandlersSim handlers where
  callsDirectly ref v m d hr := by rw [hrel hr]
  classInitializing _ _ := planSim_of_eq hrel hallows _
  methodInvoked _ _ := planSim_of_eq hrel hallows _

end Same

theorem planSim_exactly (p : Plan) : exactly.PlanSim p p :=
  planSim_of_eq (fun hr => hr) (fun _ => trivial) p

theorem handlersSim_exactly (handlers : Handlers) : exactly.HandlersSim handlers :=
  handlersSim_of_eq (fun hr => hr) (fun _ => trivial) handlers

theorem executeBy_exactly (limit : Limit) (handlers : Handlers) {fuel fuel' : Nat}
    (h : fuel ≤ fuel') :
    exactly.ExecuteSim (executeBy limit handlers fuel) (executeBy limit handlers fuel') := by
  refine exactly_lax.executeBy_sim (handlersSim_exactly handlers) ?_ (.inr ⟨trivial, h⟩)
  rintro m _ rfl k owner args
  exact ⟨fun _ => trivial, .inl rfl⟩

/-- What is simulated with the machine on both sides is an outcome of the second. -/
theorem Sim.eq_of_exactly {α : Type} {x y : Run α} (h : exactly.Sim Eq x y) {m m' : Machine}
    {r : Except VmError α} (hx : x m = some (r, m')) :
    y m = some (r, m') ∧ m.Evolves m' := by
  have ho := h m m rfl
  rw [hx] at ho
  obtain ⟨_, hy, rfl, he, -⟩ := ho.exists_eq
  exact ⟨hy, he⟩

end Simulation

/-- What a body has entered it has left. -/
theorem evolves_of_run {handlers : Handlers} {m m' : Machine} {fuel steps : Nat}
    {r : Except VmError Value} {limit : Limit} {owner : String} {k : LoadedMethod}
    {f : Frame}
    (h : Frame.run handlers (executeBy limit handlers fuel) owner k steps f m = some (r, m')) :
    m.Evolves m' :=
  ((Simulation.exactly_lax.run_sim
    (Simulation.executeBy_exactly limit handlers (Nat.le_refl fuel))
    (Simulation.handlersSim_exactly handlers) owner k (.inl rfl) f).eq_of_exactly h).2

/-! ### Steady computations -/

section Steady

variable {α β : Type} {x : Nat → Run α} {m : Machine} {o o' : Except VmError α × Machine}

/-- A computation whose outcome more fuel does not change. -/
def Steady (x : Nat → Run α) : Prop :=
  ∀ fuel fuel' m o, x fuel m = some o → fuel ≤ fuel' → x fuel' m = some o

theorem steady_const (x : Run α) : Steady fun _ => x := fun _ _ _ _ h _ => h

theorem Steady.bind {g : Nat → α → Run β} (hx : Steady x) (hg : ∀ a, Steady fun n => g n a) :
    Steady fun n => x n >>= g n := by
  intro fuel fuel' m o h hle
  dsimp only at h ⊢
  rw [Run.bind_apply] at h ⊢
  rcases hxm : x fuel m with _ | ⟨e | a, m'⟩
  · rw [hxm] at h
    exact nomatch h
  · rw [hxm] at h
    rw [hx fuel fuel' m _ hxm hle]
    exact h
  · rw [hxm] at h
    rw [hx fuel fuel' m _ hxm hle]
    exact hg a fuel fuel' m' o h hle

theorem Steady.deeper (hx : Steady x) : Steady fun n => Run.deeper (x n) := by
  intro fuel fuel' m o h hle
  dsimp only at h ⊢
  rw [Run.deeper_apply] at h ⊢
  rcases hxm : x fuel (m.atDepth (m.depth + 1)) with _ | p
  · rw [hxm] at h
    exact nomatch h
  · rw [hx fuel fuel' _ _ hxm hle, ← hxm]
    exact h

variable {handlers : Handlers} {limit : Limit}

/-- **Methods.** -/
theorem steady_execute (c : ClassRef) (i : Nat) (args : List Value) :
    Steady fun n => executeBy limit handlers n c i args := by
  rintro fuel fuel' m ⟨r, m'⟩ h hle
  exact ((Simulation.executeBy_exactly limit handlers hle c i args).eq_of_exactly h).1

/-- **Plans.** -/
theorem steady_plan (p : Plan) : Steady fun n => p.run (executeBy limit handlers n) := by
  rintro fuel fuel' m ⟨r, m'⟩ h hle
  exact ((Simulation.plan_sim (Simulation.executeBy_exactly limit handlers hle)
    (Simulation.planSim_exactly p)).eq_of_exactly h).1

/-- A body may be given more steps, and the calls it makes more fuel. -/
theorem run_of_le {owner : String} {k : LoadedMethod} {f : Frame} {fuel fuel' steps steps' : Nat}
    {o : Except VmError Value × Machine} (hfuel : fuel ≤ fuel') (hsteps : steps ≤ steps')
    (h : Frame.run handlers (executeBy limit handlers fuel) owner k steps f m = some o) :
    Frame.run handlers (executeBy limit handlers fuel') owner k steps' f m = some o :=
  ((Simulation.exactly_lax.run_sim (Simulation.executeBy_exactly limit handlers hfuel)
    (Simulation.handlersSim_exactly handlers) owner k (.inr ⟨trivial, hsteps⟩) f).eq_of_exactly h).1

/-- **Bodies.** -/
theorem steady_run (owner : String) (k : LoadedMethod) (f : Frame) :
    Steady fun n => Frame.run handlers (executeBy limit handlers n) owner k n f :=
  fun _ _ _ _ h hle => run_of_le hle hle h

/-! ### Outcomes -/

/-- With some amount of fuel, a computation has an outcome. -/
def ComesTo (x : Nat → Run α) (m : Machine) (o : Except VmError α × Machine) : Prop :=
  ∃ fuel, x fuel m = some o

/-- There is one outcome at most. -/
theorem ComesTo.unique (hx : Steady x) (h : ComesTo x m o) (h' : ComesTo x m o') : o = o' := by
  obtain ⟨fuel, h⟩ := h
  obtain ⟨fuel', h'⟩ := h'
  have hmax := hx _ _ _ _ h (Nat.le_max_left fuel fuel')
  have hmax' := hx _ _ _ _ h' (Nat.le_max_right fuel fuel')
  exact Option.some.inj (hmax.symm.trans hmax')

/-- Computations that are the same where one has more fuel come to the same. -/
theorem comesTo_iff_of_eq {y : Nat → Run α} (hx : Steady x) (hy : Steady y) {m' : Machine}
    {n n' : Nat} (h : ∀ fuel, x (fuel + n) m = y (fuel + n') m') :
    ComesTo x m o ↔ ComesTo y m' o := by
  constructor
  · rintro ⟨fuel, hfuel⟩
    exact ⟨fuel + n', (h fuel).symm.trans (hx _ _ _ _ hfuel (Nat.le_add_right fuel n))⟩
  · rintro ⟨fuel, hfuel⟩
    exact ⟨fuel + n, (h fuel).trans (hy _ _ _ _ hfuel (Nat.le_add_right fuel n'))⟩

/-- One call deeper. -/
theorem comesTo_deeper {r : Except VmError α} {m' : Machine} :
    ComesTo (fun n => Run.deeper (x n)) m (r, m') ↔
      ∃ m'', ComesTo x (m.atDepth (m.depth + 1)) (r, m'') ∧
        m' = m''.atDepth (m''.depth - 1) := by
  constructor
  · rintro ⟨fuel, h⟩
    dsimp only at h
    rw [Run.deeper_apply] at h
    rcases hx : x fuel (m.atDepth (m.depth + 1)) with _ | ⟨r', m''⟩ <;> rw [hx] at h
    · exact nomatch h
    · cases h
      exact ⟨m'', ⟨fuel, hx⟩, rfl⟩
  · rintro ⟨m'', ⟨fuel, h⟩, rfl⟩
    refine ⟨fuel, ?_⟩
    dsimp only
    rw [Run.deeper_apply, h]

/-- **Calls.** A method that is entered comes to what its body comes to, one call deeper. -/
theorem comesTo_executeBy_iff {c : ClassRef} {i : Nat} {k : LoadedMethod} {args : List Value}
    (hk : (m.cls c).methods[i]? = some k)
    (henters : limit.verdict (k.obstacle? (m.cls c).name args m) = some none)
    {r : Except VmError Value} {m' : Machine} :
    ComesTo (fun n => executeBy limit handlers n c i args) m (r, m') ↔
      ∃ m'', ComesTo (fun n => Frame.run handlers (executeBy limit handlers n) (m.cls c).name k n
          (.enter c k.maxLocals.toNat args)) (m.atDepth (m.depth + 1)) (r, m'') ∧
        m' = m''.atDepth m.depth := by
  have heq : ∀ fuel, executeBy limit handlers (fuel + 1) c i args m =
      Run.deeper (Frame.run handlers (executeBy limit handlers (fuel + 0)) (m.cls c).name k (fuel + 0)
        (.enter c k.maxLocals.toNat args)) m := by
    intro fuel
    rw [executeBy, Run.enterBy_apply hk, henters]
    rfl
  rw [comesTo_iff_of_eq (steady_execute c i args)
    (Steady.deeper (steady_run (m.cls c).name k (.enter c k.maxLocals.toNat args))) heq,
    comesTo_deeper]
  refine exists_congr fun m'' => and_congr_right ?_
  rintro ⟨fuel, hfuel⟩
  have hdepth : m''.depth = m.depth + 1 := (evolves_of_run hfuel).depth
  rw [hdepth, Nat.add_sub_cancel]

end Steady

/-- A method that is refused at its door comes to that. -/
theorem comesTo_of_obstacle {handlers : Handlers} {m : Machine} {c : ClassRef} {i : Nat}
    {k : LoadedMethod} {args : List Value} {e : VmError} (hk : (m.cls c).methods[i]? = some k)
    (hobstacle : k.obstacle? (m.cls c).name args m = some e) :
    ComesTo (fun n => executeWith handlers n c i args) m (.error e, m) := by
  refine ⟨1, ?_⟩
  dsimp only
  rw [← executeBy_enforced, executeBy, Run.enterBy_apply hk, hobstacle]
  rfl

end Interpose
