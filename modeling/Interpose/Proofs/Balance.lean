import Interpose.Proofs.Congruences
/-!
# Balance

Whatever is done with a machine, by whatever request, it is left *balanced*: as many methods are
entered as were before, and each class is as far in its initialization as it was, or has gone all the
way from the beginning to the end. So no class is in the middle of its initialization that was not
before, and none has come out of the middle; and what has been initialized stays so.

In between this is not so: a method that runs has been entered, and a class is in the middle of its
initialization while its initializer runs. Balance is a property of computations as wholes. It is
put together from their parts, with two exceptions, calls and initializations, which restore it.

Calls are nested too deep for no machine *within the limit*. Computations are compared from such
machines only, two at a time: the second has a balanced outcome, and it is that of the first, if the
first has one. The two differ later on, in how methods are executed. This is a congruence: what
executes nothing is balanced, and computations put together from balanced ones are.

## Main definitions

* `Machine.Balanced`, `Machine.Within`, `Machine.AtRest`
* `Run.Orderly`: balanced computations, two at a time

## Main results

* `Machine.Balanced.initializing_iff`: the same classes are in the middle of their initialization
-/

namespace Interpose

/-! ### Balanced machines -/

/-- How far a class may have come after something that is over: as far as it was, or from the
beginning to the end. -/
inductive InitState.Follows : InitState → InitState → Prop
  | same (s : InitState) : Follows s s
  | done : Follows .uninitialized .initialized

namespace InitState.Follows

variable {s s' s'' : InitState}

theorem trans (h : s.Follows s') (h' : s'.Follows s'') : s.Follows s'' := by
  cases h with
  | same => exact h'
  | done =>
    cases h'
    exact .done

theorem initializing_iff (h : s.Follows s') : s' = .initializing ↔ s = .initializing := by
  cases h <;> simp

theorem initialized (h : s.Follows s') (hs : s = .initialized) : s' = .initialized := by
  cases h with
  | same => exact hs
  | done => rfl

/-- From the beginning, a class gets to the end or nowhere. -/
theorem of_uninitialized (h : s ≠ .initializing) : InitState.uninitialized.Follows s := by
  cases s with
  | uninitialized => exact .same _
  | initializing => exact absurd rfl h
  | initialized => exact .done

end InitState.Follows

namespace Machine

/-- What may have become of a machine by something that is over. -/
structure Balanced (m m' : Machine) : Prop where
  depth : m'.depth = m.depth
  maxDepth : m'.maxDepth = m.maxDepth
  state : ∀ c, (m.cls c).state.Follows (m'.cls c).state

/-- Calls are not nested deeper than the limit allows. -/
def Within (m : Machine) : Prop := m.depth ≤ m.maxDepth

/-- No method has been entered, and no class is in the middle of its initialization. -/
structure AtRest (m : Machine) : Prop where
  depth : m.depth = 0
  state : ∀ c, (m.cls c).state ≠ .initializing

variable {m m' m'' : Machine}

theorem Balanced.refl (m : Machine) : m.Balanced m := ⟨rfl, rfl, fun _ => .same _⟩

theorem Balanced.trans (h : m.Balanced m') (h' : m'.Balanced m'') : m.Balanced m'' :=
  ⟨h'.depth.trans h.depth, h'.maxDepth.trans h.maxDepth, fun c => (h.state c).trans (h'.state c)⟩

theorem Balanced.within (h : m.Balanced m') (hm : m.Within) : m'.Within := by
  rw [Within, h.depth, h.maxDepth]
  exact hm

/-- The same classes are in the middle of their initialization. -/
theorem Balanced.initializing_iff (h : m.Balanced m') (c : ClassRef) :
    (m'.cls c).state = .initializing ↔ (m.cls c).state = .initializing :=
  (h.state c).initializing_iff

theorem Balanced.initialized (h : m.Balanced m') {c : ClassRef}
    (hc : (m.cls c).state = .initialized) : (m'.cls c).state = .initialized :=
  (h.state c).initialized hc

theorem Balanced.atRest (h : m.Balanced m') (hm : m.AtRest) : m'.AtRest :=
  ⟨h.depth.trans hm.depth, fun c hc => hm.state c ((h.initializing_iff c).1 hc)⟩

theorem AtRest.within (h : m.AtRest) : m.Within := by
  rw [Within, h.depth]
  exact Nat.zero_le _

/-- Where nothing is executed, every class is as far as it was. -/
theorem Retains.balanced (h : m.Retains m') : m.Balanced m' := by
  refine ⟨h.depth, h.maxDepth, fun c => ?_⟩
  rw [h.state]
  exact .same _

/-- What is balanced one call deeper is balanced, once that call has been left. -/
theorem Balanced.of_deeper (h : (m.atDepth (m.depth + 1)).Balanced m') :
    m.Balanced (m'.atDepth (m'.depth - 1)) := by
  refine ⟨?_, h.maxDepth, h.state⟩
  rw [depth_atDepth, h.depth, depth_atDepth, Nat.add_sub_cancel]

end Machine

/-! ### Balanced computations -/

namespace Run

variable {α : Type}

/-- What comes to one outcome at most comes to none or to that. -/
theorem Orderly.none_or_some {o : Option α} {a : α} (h : ∀ b, o = some b → b = a) :
    o = none ∨ o = some a := by
  cases o with
  | none => exact .inl rfl
  | some b => exact .inr (congrArg some (h b rfl))

/-- From machines within the limit, the second computation has a balanced outcome, and it is that of
the first, if the first has one. -/
def balance : Congruence where
  Rel x y := ∀ m : Machine, m.Within →
    ∃ r m', y m = some (r, m') ∧ m.Balanced m' ∧ ∀ o, x m = some o → o = (r, m')
  refl h m _ := by
    obtain ⟨r, m', hx, hretains⟩ := h m
    exact ⟨r, m', hx, hretains.balanced, fun o ho => Option.some.inj (ho.symm.trans hx)⟩
  bind hx hf m hm := by
    obtain ⟨r, m', hy, hb, hxm⟩ := hx m hm
    rw [bind_apply, bind_apply, hy]
    cases r with
    | error e =>
      refine ⟨.error e, m', rfl, hb, fun o ho => ?_⟩
      obtain hp | hp := Orderly.none_or_some hxm
      all_goals
        rw [hp] at ho
        cases ho
      rfl
    | ok a =>
      obtain ⟨r', m'', hg, hb', hfm⟩ := hf a m' (hb.within hm)
      refine ⟨r', m'', hg, hb.trans hb', fun o ho => ?_⟩
      obtain hp | hp := Orderly.none_or_some hxm
      · rw [hp] at ho
        cases ho
      · rw [hp] at ho
        exact hfm o ho
  attempt h m hm := by
    obtain ⟨r, m', hy, hb, hx⟩ := h m hm
    refine ⟨.ok r, m', ?_, hb, fun o ho => ?_⟩
    · rw [Run.attempt, hy]
    · rw [Run.attempt] at ho
      obtain hp | hp := Orderly.none_or_some hx
      all_goals
        rw [hp] at ho
        cases ho
      rfl

/-- Balanced computations, two at a time. -/
abbrev Orderly (x y : Run α) : Prop := balance.Related x y

namespace Orderly

variable {x y : Run α}

theorem outcome (h : Orderly x y) (m : Machine) (hm : m.Within) :
    ∃ r m', y m = some (r, m') ∧ m.Balanced m' ∧ ∀ o, x m = some o → o = (r, m') :=
  h.rel m hm

theorem balanced (h : Orderly x y) {m m' : Machine} {r : Except VmError α}
    (hm : m.Within) (hx : x m = some (r, m')) : m.Balanced m' := by
  obtain ⟨r', m'', -, hb, hr⟩ := h.outcome m hm
  cases hr _ hx
  exact hb

/-- Where there is no first outcome, any balanced one will do. -/
theorem outOfFuel (h : Orderly y y) : Orderly Run.outOfFuel y := by
  refine ⟨fun m hm => ?_⟩
  obtain ⟨r, m', hy, hb, -⟩ := h.outcome m hm
  refine ⟨r, m', hy, hb, fun o ho => ?_⟩
  rw [Run.outOfFuel] at ho
  cases ho

end Orderly

end Run

end Interpose
