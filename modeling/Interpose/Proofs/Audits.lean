import Interpose.Proofs.CongruentSteps
import Interpose.Proofs.Initialization
import Interpose.Proofs.VerifiedCode
import Interpose.Proofs.Walks
/-!
# Every operation is balanced

A method is entered where calls are nested less deep than the limit allows, and is left again,
however it ends. So executions are balanced, and with them everything that runs code through them:
instructions, handlers at work, requests. It makes no difference how these are nested.

To say of every step that calls are within the limit there, and that it is balanced, and not only of
the outcome of a run, runs are *audited*: in an audited run a step that is not as said leaves no
outcome at all. The end of the fuel is an ordinary failure there, as in watched runs, so an audited
run has an outcome exactly if no step on its way is amiss.

Nothing is asked of handlers, and of machines no more than that calls are within the limit: so it is
said as well of the operations that handlers ask for, in the middle of other ones.

## Main definitions

* `Run.audit`, `audited`: audited runs
* `Machine.Reaches`: requests one after the other

## Main results

* `audited_orderly`: methods
* `request_leaves_balance`: requests
-/

namespace Interpose

/-! ### Audits -/

open Classical in
/-- Has the outcome of a computation if that is balanced, on a machine within the limit. -/
noncomputable def Run.audit {α : Type} (x : Run α) : Run α := fun m =>
  match x m with
  | none => none
  | some (result, m') => if m.Within ∧ m.Balanced m' then some (result, m') else none

/-- Executes methods, every step within the limit and balanced. -/
noncomputable def audited (handlers : Handlers) (fuel : Nat) : Execute :=
  executeUnder Run.audit (Run.fail .stackOverflow) handlers fuel

namespace Run

variable {α : Type} {execute execute' : Execute} {handlers : Handlers}

/-- An audit of balanced computations finds nothing. -/
theorem Orderly.audit {x y : Run α} (h : Orderly x y) : Orderly x (audit y) := by
  refine ⟨fun m hm => ?_⟩
  obtain ⟨r, m', hy, hb, hx⟩ := h.outcome m hm
  refine ⟨r, m', ?_, hb, hx⟩
  rw [Run.audit, hy]
  exact if_pos ⟨hm, hb⟩

/-- **Bodies.** The induction is on the fuel. -/
theorem run_orderly [he : ∀ c i args, Orderly (execute c i args) (execute' c i args)]
    (owner : String) (k : LoadedMethod) (fuel : Nat) (f : Frame) :
    Orderly (Frame.run handlers execute owner k fuel f)
      (Frame.runUnder audit (fail .stackOverflow) handlers execute' owner k fuel f) := by
  induction fuel generalizing f with
  | zero => exact .outOfFuel (.fail _)
  | succ fuel ih =>
    rw [Frame.run, Frame.runUnder]
    cases k.code[f.pc]? with
    | none => exact Orderly.audit (.fail _)
    | some i =>
      have hstep : Act.Related balance (Act.step execute handlers i)
          (Act.step execute' handlers i) :=
        inferInstance
      have haudit : Orderly ((Act.step execute handlers i).run { f with pc := f.pc + 1 })
          (audit (Act.step execute' handlers i { f with pc := f.pc + 1 })) :=
        Orderly.audit (hstep.run _)
      refine .seq fun p => ?_
      obtain ⟨_ | v, f'⟩ := p
      · exact ih f'
      · exact .pure v

/-! ### Methods -/

/-- A method is entered where there is room for another call. -/
theorem within_of_obstacle {k : LoadedMethod} {owner : String} {args : List Value} {m : Machine}
    (h : k.obstacle? owner args m = none) : (m.atDepth (m.depth + 1)).Within := by
  have hlimit : ¬ m.maxDepth ≤ m.depth := by
    intro hle
    rw [LoadedMethod.obstacle?, if_pos hle] at h
    split at h
    · cases h
    split at h
    · cases h
    split at h <;> cases h
  exact Nat.lt_of_not_le hlimit

theorem deeper_orderly {x y : Run α} (h : Orderly x y) {m : Machine}
    (hm : (m.atDepth (m.depth + 1)).Within) : ∃ r m', deeper y m = some (r, m') ∧ m.Balanced m' ∧
      ∀ o, deeper x m = some o → o = (r, m') := by
  obtain ⟨r, m', hy, hb, hx⟩ := h.outcome _ hm
  rw [deeper_apply, deeper_apply, hy]
  refine ⟨r, m'.atDepth (m'.depth - 1), rfl, hb.of_deeper, fun o ho => ?_⟩
  obtain hp | hp := Orderly.none_or_some hx
  all_goals
    rw [hp] at ho
    cases ho
  rfl

/-- **Methods.** The depth goes up where there is room, and comes down again. -/
theorem enterBy_orderly {body body' : String → LoadedMethod → Frame → Run Value}
    (hbody : ∀ owner k f, Orderly (body owner k f) (body' owner k f)) (c : ClassRef) (i : Nat)
    (args : List Value) :
    Orderly (enterBy .enforced body c i args) (enterBy .enforced body' c i args) := by
  refine ⟨fun m _ => ?_⟩
  cases hk : (m.cls c).methods[i]? with
  | none =>
    have hfail : ∀ b, enterBy .enforced b c i args m =
        some (.error (.noSuchMethod (.position (m.cls c).name i)), m) := by
      intro b
      rw [enterBy, get_bind_apply, hk]
      rfl
    rw [hfail, hfail]
    exact ⟨_, m, rfl, .refl m, fun o ho => (Option.some.inj ho).symm⟩
  | some k =>
    rw [enterBy_apply hk, enterBy_apply hk, Limit.verdict_enforced]
    cases ho : k.obstacle? (m.cls c).name args m with
    | some e => exact ⟨_, m, rfl, .refl m, fun o ho => (Option.some.inj ho).symm⟩
    | none => exact deeper_orderly (hbody ..) (within_of_obstacle ho)

end Run

/-- **Executions.** -/
instance audited_orderly (handlers : Handlers) (fuel : Nat) (c : ClassRef) (i : Nat)
    (args : List Value) :
    Run.Orderly (executeWith handlers fuel c i args) (audited handlers fuel c i args) := by
  induction fuel generalizing c i args with
  | zero => exact .outOfFuel (.fail _)
  | succ fuel ih =>
    rw [executeWith, Run.enter_eq]
    have hbody : ∀ owner k f, Run.Orderly
        (Frame.run handlers (executeWith handlers fuel) owner k fuel f)
        (Frame.runUnder Run.audit (Run.fail .stackOverflow) handlers (audited handlers fuel) owner k
          fuel f) :=
      fun owner k f => Run.run_orderly owner k fuel f
    exact Run.enterBy_orderly hbody c i args

/-! ### Operations -/

/-- What becomes of a machine by requests one after the other. -/
inductive Machine.Reaches (handlers : Handlers) : Machine → Machine → Prop
  | refl (m : Machine) : Reaches handlers m m
  | request {m m' m'' : Machine} {r : Request} {fuel : Nat} {result : Except VmError Value}
      (before : Reaches handlers m m')
      (run : r.run (executeWith handlers fuel) m' = some (result, m'')) : Reaches handlers m m''

namespace Machine

variable {handlers : Handlers} {m m' : Machine}

theorem Within.request (hm : m.Within) {r : Request} {fuel : Nat} {result : Except VmError Value}
    (h : r.run (executeWith handlers fuel) m = some (result, m')) : m.Balanced m' := by
  have horderly : Run.Orderly (r.run (executeWith handlers fuel)) (r.run (audited handlers fuel)) :=
    inferInstance
  exact horderly.balanced hm h

theorem Reaches.balanced (h : Reaches handlers m m') (hm : m.Within) : m.Balanced m' := by
  induction h with
  | refl => exact .refl m
  | request before run ih => exact ih.trans ((ih.within hm).request run)

end Machine

/-- **Balance.** Of whatever request, whatever handlers do: if it is audited, it comes to an outcome
within every amount of fuel, so on its way calls are within the limit at every step, and every step
is balanced; and where the request itself comes to an outcome, it is that one. Then the call depth is
what it was, the same classes are in the middle of their initialization, and what had been
initialized still is; so a machine at rest is at rest again, after any number of requests.
Initialization does nothing to a class that has been initialized, and completes for none. -/
theorem request_leaves_balance {handlers : Handlers} {m : Machine} (hm : m.Within) (r : Request)
    (fuel : Nat) :
    (∃ result m', r.run (audited handlers fuel) m = some (result, m') ∧ m.Balanced m') ∧
    (∀ result m', r.run (executeWith handlers fuel) m = some (result, m') →
      r.run (audited handlers fuel) m = some (result, m') ∧ m'.depth = m.depth ∧
      (∀ c, (m'.cls c).state = .initializing ↔ (m.cls c).state = .initializing) ∧
      ∀ c, (m.cls c).state = .initialized → (m'.cls c).state = .initialized) ∧
    (m.AtRest → ∀ m', m.Reaches handlers m' → m'.AtRest) ∧
    ∀ c, ((m.cls c).state = .initialized →
        Run.initializeClass (executeWith handlers fuel) c m = some (.ok (), m)) ∧
      (m.realm.Sound → m.classes.Has c →
        Run.initializeClassOnce (executeWith handlers fuel) c m =
          Run.initializeClass (executeWith handlers fuel) c m) := by
  have horderly : Run.Orderly (r.run (executeWith handlers fuel)) (r.run (audited handlers fuel)) :=
    inferInstance
  obtain ⟨result, m', haudited, hbalanced, hrun⟩ := horderly.outcome m hm
  refine ⟨⟨result, m', haudited, hbalanced⟩, fun result' m'' h => ?_,
    fun hrest m' h => (h.balanced hm).atRest hrest, fun c => ⟨fun hc => ?_, fun hsound hc => ?_⟩⟩
  · cases hrun _ h
    exact ⟨haudited, hbalanced.depth, hbalanced.initializing_iff, fun c hc =>
      hbalanced.initialized hc⟩
  · exact Frame.initializeClass_of_begun (by rw [hc]; exact nofun)
  · exact Run.initializeClassOnce_eq (audited_orderly handlers fuel) hm fun a ha =>
      (hsound.founded.slotCount_le hc a ha).1

/-- A call that answers seven is balanced. -/
theorem seven_leaves_balance :
    ∃ m', (Request.callStatic "t.Seven" "f" "()I" []).run (audited (fun _ => default) 3)
      { realm := sevenRealm, entry := ⟨0⟩ } = some (.ok (.int 7), m') ∧ m'.depth = 0 := by
  have hrun : ∃ m', (Request.callStatic "t.Seven" "f" "()I" []).run
      (executeWith (fun _ => default) 3) { realm := sevenRealm, entry := ⟨0⟩ } =
        some (.ok (.int 7), m') := ⟨_, rfl⟩
  obtain ⟨m', hm'⟩ := hrun
  have hwithin : Machine.Within { realm := sevenRealm, entry := ⟨0⟩ } := Nat.zero_le _
  obtain ⟨haudited, hdepth, -⟩ := (request_leaves_balance hwithin _ 3).2.1 _ _ hm'
  exact ⟨m', haudited, hdepth⟩

end Interpose
