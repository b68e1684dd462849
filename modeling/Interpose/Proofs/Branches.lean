import Interpose.Proofs.Walks
/-!
# Branches on truth

There are two notions of truth. `Value.isTruthy` has an answer for every value: null, false and the
zeros are not truthy, and everything else is. The jumps on truth do not ask it. They take a boolean off
the stack, on which they agree with it, and refuse every other value with a report of its type. Nothing
rules such a value out beforehand, since verification counts operands and does not look at what they
are.

## Main definitions

* `Condition.Goes`, `Condition.Refuses`: what a conditional jump does on a value

## Main results

* `Condition.truth_jumps_iff`: on which values the jumps on truth go by it
-/

namespace Interpose

/-! ### What jumps do on a value -/

namespace Condition

/-- On a value, the jump takes it off the stack, and is taken or not. Nothing else is changed, and
where the jump is not taken, control goes on behind it. -/
def Goes (c : Condition) (v : Value) (isTaken : Bool) : Prop :=
  ∀ (execute : Execute) (handlers : Handlers) (target : Nat) (f : Frame) (rest : List Value)
    (m : Machine), Act.step execute handlers (.jump c target) { f with stack := v :: rest } m =
      some (.ok (none, { f with pc := if isTaken then target else f.pc, stack := rest }), m)

/-- On a value, the jump fails with a report of its type, and leaves the machine as it was. -/
def Refuses (c : Condition) (v : Value) : Prop :=
  ∀ (execute : Execute) (handlers : Handlers) (target : Nat) (f : Frame) (rest : List Value)
    (m : Machine), Act.step execute handlers (.jump c target) { f with stack := v :: rest } m =
      some (.error (.type (.mismatch "boolean" (v.typeName m.classes m.heap))), m)

theorem ifTrue_goes (b : Bool) : ifTrue.Goes (.bool b) b := by
  intro execute handlers target f rest m
  cases b <;> rfl

theorem ifFalse_goes (b : Bool) : ifFalse.Goes (.bool b) (!b) := by
  intro execute handlers target f rest m
  cases b <;> rfl

/-- The jumps on truth ask for a boolean before they decide, so they refuse what is none. -/
theorem refuses_of_bool? {c : Condition} (hc : c = ifTrue ∨ c = ifFalse) {v : Value}
    (hv : v.bool? = none) : c.Refuses v := by
  intro execute handlers target f rest m
  have hfail : Run.asBool v m =
      some (.error (.type (.mismatch "boolean" (v.typeName m.classes m.heap))), m) := by
    unfold Run.asBool
    rw [hv]
    rfl
  have htaken : Act.taken c { f with stack := v :: rest } m =
      some (.error (.type (.mismatch "boolean" (v.typeName m.classes m.heap))), m) := by
    rcases hc with rfl | rfl
    · exact (Act.bind_of_ok (a := v) rfl).trans (Run.bind_of_error hfail)
    · refine (Act.bind_of_ok (a := v) rfl).trans ?_
      exact Act.bind_of_error (Run.bind_of_error hfail)
  exact Act.bind_of_error htaken

/-- A jump cannot both go on and fail. -/
theorem Goes.not_refuses {c : Condition} {v : Value} {b : Bool} (h : c.Goes v b) : ¬c.Refuses v := by
  intro h'
  let execute : Execute := fun _ _ _ => Run.outOfFuel
  have hgoes := h execute (fun _ => default) 0 default [] default
  cases hgoes.symm.trans (h' execute (fun _ => default) 0 default [] default)

/-- **Branches on truth.** On a boolean, the jumps on truth and on its opposite are taken by whether it
is truthy. On any other value, truthy or not, both fail with a report of its type. -/
theorem truth_jumps_iff (v : Value) :
    (ifTrue.Goes v v.isTruthy ↔ ∃ b, v = .bool b) ∧
    (ifFalse.Goes v (!v.isTruthy) ↔ ∃ b, v = .bool b) ∧
    (ifTrue.Refuses v ↔ ¬∃ b, v = .bool b) ∧
    (ifFalse.Refuses v ↔ ¬∃ b, v = .bool b) := by
  by_cases hv : ∃ b, v = .bool b
  · obtain ⟨b, rfl⟩ := hv
    exact ⟨iff_of_true (ifTrue_goes b) ⟨b, rfl⟩, iff_of_true (ifFalse_goes b) ⟨b, rfl⟩,
      iff_of_false (ifTrue_goes b).not_refuses fun h => h ⟨b, rfl⟩,
      iff_of_false (ifFalse_goes b).not_refuses fun h => h ⟨b, rfl⟩⟩
  · have hnone : v.bool? = none := by
      cases v with
      | bool b => exact absurd ⟨b, rfl⟩ hv
      | _ => rfl
    have htrue := refuses_of_bool? (.inl rfl) hnone
    have hfalse := refuses_of_bool? (.inr rfl) hnone
    exact ⟨iff_of_false (fun h => h.not_refuses htrue) hv,
      iff_of_false (fun h => h.not_refuses hfalse) hv, iff_of_true htrue hv, iff_of_true hfalse hv⟩

/-- A body that branches on an int. -/
def branchOnFive : List Instruction :=
  [.constInt 5, .jump .ifTrue 4, .constInt 1, .simple .ret, .constInt 2, .simple .ret]

/-- Verification accepts a body that branches on an int. The int is truthy, and the jump on truth is not
taken on it; nor is its opposite taken on null, which is not truthy. -/
theorem truthy_branch_refused :
    Verifier.checkStack "f" {} false branchOnFive = .ok () ∧
    (Value.int 5).isTruthy = true ∧ ¬ifTrue.Goes (.int 5) true ∧
    Value.null.isTruthy = false ∧ ¬ifFalse.Goes .null true := by
  have hverified : Verifier.checkStack "f" {} false branchOnFive = .ok () := by cbv
  have hint : ifTrue.Refuses (.int 5) := refuses_of_bool? (.inl rfl) rfl
  have hnull : ifFalse.Refuses .null := refuses_of_bool? (.inr rfl) rfl
  exact ⟨hverified, rfl, fun h => h.not_refuses hint, rfl, fun h => h.not_refuses hnull⟩

end Condition

end Interpose
