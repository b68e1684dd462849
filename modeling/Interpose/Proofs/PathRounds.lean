import Interpose.Proofs.Results
import Interpose.Verifier
/-!
# Following paths in rounds

The depth check goes in rounds. A round takes one of the entries that are pending and either makes it,
finds that it is nothing new, or gives up. The check takes the entries in an order of its own, the last
one first; here a round may take any of them, so that what holds of all rounds holds of all orders.

Two things are kept by every round. There is room for as many rounds as there are entries to make, and
for two more behind each instruction that has not been entered. And an entry that is known, because it
has been made or is pending, stays known. At the end nothing is pending, so the depths of the
instructions that have been entered are those that control may go on with.

## Main definitions

* `Verifier.Progress`, `Verifier.Progress.enter`: how far the check has come, and one round
* `Verifier.Rounds`: what any order may come to in a number of rounds

## Main results

* `Verifier.exists_rounds_of_checkStack`: the check is one of the orders
* `Verifier.Rounds.length_le`: every order comes to an end
* `Verifier.Rounds.settled`: what has been entered has its successors known
-/

namespace Interpose

namespace Verifier

variable {method : String} {pool : Pool} {returnsVoid : Bool} {code : Array Instruction}

/-- How far the depth check has come: the depths of the instructions entered so far, and the entries
to make. -/
structure Progress where
  depths : Array (Option Nat)
  pending : List (Nat × Nat)

namespace Progress

/-- A round on one entry, with others left to make. -/
def enter (method : String) (pool : Pool) (returnsVoid : Bool) (code : Array Instruction)
    (depths : Array (Option Nat)) (entry : Nat × Nat) (rest : List (Nat × Nat)) :
    Except VerifyError Progress :=
  match code[entry.1]?, depths[entry.1]? with
  | some i, some none =>
    match depthAfter method pool returnsVoid entry.1 entry.2 i with
    | .error e => .error e
    | .ok next =>
      .ok ⟨depths.setIfInBounds entry.1 (some entry.2),
        (successors entry.1 i).reverse.map (fun n => (n, next)) ++ rest⟩
  | some _, some (some first) =>
    if first = entry.2 then .ok ⟨depths, rest⟩
    else .error (.stackMismatch method entry.1 first entry.2)
  | _, _ => .error (.fallOffEnd method)

/-- A round on any of the pending entries. -/
def Takes (method : String) (pool : Pool) (returnsVoid : Bool) (code : Array Instruction)
    (s s' : Progress) : Prop :=
  ∃ entry rest, s.pending.Perm (entry :: rest) ∧
    enter method pool returnsVoid code s.depths entry rest = .ok s'

/-- Giving up on one of the pending entries. -/
def Refuses (method : String) (pool : Pool) (returnsVoid : Bool) (code : Array Instruction)
    (s : Progress) (e : VerifyError) : Prop :=
  ∃ entry rest, s.pending.Perm (entry :: rest) ∧
    enter method pool returnsVoid code s.depths entry rest = .error e

/-- Before the first round: nothing has been entered, and the first instruction is to be, with an
empty stack. -/
def start (size : Nat) : Progress := ⟨Array.replicate size none, [(0, 0)]⟩

/-- The rounds there is room for. -/
def room (s : Progress) : Nat := 2 * s.depths.count none + s.pending.length

/-- An entry that has been made or is pending. -/
def Knows (s : Progress) (p n : Nat) : Prop := s.depths[p]? = some (some n) ∨ (p, n) ∈ s.pending

end Progress

/-- What may have been come to after a number of rounds, in any order. -/
inductive Rounds (method : String) (pool : Pool) (returnsVoid : Bool) (code : Array Instruction) :
    Nat → Progress → Prop
  | start : Rounds method pool returnsVoid code 0 (.start code.size)
  | take {k : Nat} {s s' : Progress} : Rounds method pool returnsVoid code k s →
      s.Takes method pool returnsVoid code s' → Rounds method pool returnsVoid code (k + 1) s'

/-! ### The order of the check -/

theorem followPaths_cons (depths : Array (Option Nat)) (entry : Nat × Nat)
    (rest : List (Nat × Nat)) :
    followPaths method pool returnsVoid code depths (entry :: rest) =
      match Progress.enter method pool returnsVoid code depths entry rest with
      | .error e => .error e
      | .ok s => followPaths method pool returnsVoid code s.depths s.pending := by
  obtain ⟨p, n⟩ := entry
  rw [followPaths, Progress.enter]
  dsimp only
  split
  next hi hd =>
    rw [hi, hd]
    dsimp only
    cases depthAfter method pool returnsVoid p n _ <;> rfl
  next first hi hd =>
    rw [hi, hd]
    dsimp only
    split <;> rfl
  next hfresh hagain =>
    cases hi : code[p]? with
    | none => rfl
    | some i =>
      cases hd : depths[p]? with
      | none => rfl
      | some d =>
        cases d with
        | none => exact (hfresh i hi hd).elim
        | some first => exact (hagain i first hi hd).elim

/-! ### What a round does -/

namespace Progress

variable {depths : Array (Option Nat)} {entry : Nat × Nat} {rest : List (Nat × Nat)}
variable {s s' : Progress} {p n : Nat}

/-- A round that does not give up enters an instruction for the first time, or finds the depth that it
has been entered at already. -/
theorem enter_eq_ok (h : enter method pool returnsVoid code depths entry rest = .ok s) :
    (∃ i next, code[entry.1]? = some i ∧ depths[entry.1]? = some none ∧
      depthAfter method pool returnsVoid entry.1 entry.2 i = .ok next ∧
      s = ⟨depths.setIfInBounds entry.1 (some entry.2),
        (successors entry.1 i).reverse.map (fun n => (n, next)) ++ rest⟩) ∨
    depths[entry.1]? = some (some entry.2) ∧ s = ⟨depths, rest⟩ := by
  unfold enter at h
  split at h
  next i hi hd =>
    split at h
    next => cases h
    next next hnext =>
      cases h
      exact .inl ⟨i, next, hi, hd, hnext, rfl⟩
  next first hi hd =>
    split at h
    next heq =>
      cases h
      exact .inr ⟨heq ▸ hd, rfl⟩
    next => cases h
  next => cases h

theorem length_successors_le (p : Nat) (i : Instruction) : (successors p i).length ≤ 2 := by
  unfold successors
  cases i.target? <;> cases i.opcode.isTerminator <;> simp

/-- Each round uses up some of the room. -/
theorem Takes.room_lt (h : s.Takes method pool returnsVoid code s') : s'.room < s.room := by
  obtain ⟨entry, rest, hperm, henter⟩ := h
  have hpending : s.pending.length = rest.length + 1 := hperm.length_eq
  unfold room
  rcases enter_eq_ok henter with ⟨i, next, hi, hd, hnext, rfl⟩ | ⟨hd, rfl⟩
  · obtain ⟨hlt, hnone⟩ := Array.getElem?_eq_some_iff.1 hd
    have hpos : 0 < s.depths.count none := Array.count_pos_iff.2 (hnone ▸ Array.getElem_mem hlt)
    have hset : (s.depths.setIfInBounds entry.1 (some entry.2)).count none
        = s.depths.count none - 1 := by
      rw [Array.setIfInBounds_def, dif_pos hlt, Array.count_set, hnone]
      simp
    have htwo := length_successors_le entry.1 i
    dsimp only
    rw [hset, List.length_append, List.length_map, List.length_reverse]
    omega
  · dsimp only
    omega

/-- What is known stays known. -/
theorem Takes.knows (h : s.Takes method pool returnsVoid code s') (hknows : s.Knows p n) :
    s'.Knows p n := by
  obtain ⟨⟨q, m⟩, rest, hperm, henter⟩ := h
  have hmem : (p, n) ∈ s.pending → (p, n) = (q, m) ∨ (p, n) ∈ rest :=
    fun hp => List.mem_cons.1 (hperm.mem_iff.1 hp)
  rcases enter_eq_ok henter with ⟨i, next, hi, hd, hnext, rfl⟩ | ⟨hd, rfl⟩
  · rcases hknows with hmade | hpending
    · have hne : q ≠ p := by
        rintro rfl
        cases hd.symm.trans hmade
      exact .inl ((Array.getElem?_setIfInBounds_ne hne).trans hmade)
    · rcases hmem hpending with heq | hrest
      · cases heq
        exact .inl (Array.getElem?_setIfInBounds_self_of_lt (Array.getElem?_eq_some_iff.1 hd).1)
      · exact .inr (List.mem_append_right _ hrest)
  · rcases hknows with hmade | hpending
    · exact .inl hmade
    · rcases hmem hpending with heq | hrest
      · cases heq
        exact .inl hd
      · exact .inr hrest

/-- Whoever has been entered may go on, with the depth behind it known of all its successors. -/
structure Settled (method : String) (pool : Pool) (returnsVoid : Bool) (code : Array Instruction)
    (s : Progress) : Prop where
  start : s.Knows 0 0
  entered : ∀ p n, s.depths[p]? = some (some n) → ∃ i next, code[p]? = some i ∧
    depthAfter method pool returnsVoid p n i = .ok next ∧ ∀ q ∈ successors p i, s.Knows q next

theorem settled_start (size : Nat) : (start size).Settled method pool returnsVoid code := by
  refine ⟨.inr List.mem_cons_self, fun p n hp => ?_⟩
  obtain ⟨hlt, heq⟩ := Array.getElem?_eq_some_iff.1 hp
  have hnone : (start size).depths[p] = none := Array.getElem_replicate ..
  cases hnone.symm.trans heq

theorem Settled.of_takes (hs : s.Settled method pool returnsVoid code)
    (h : s.Takes method pool returnsVoid code s') : s'.Settled method pool returnsVoid code := by
  have hold : ∀ p n, s.depths[p]? = some (some n) → ∃ i next, code[p]? = some i ∧
      depthAfter method pool returnsVoid p n i = .ok next ∧
        ∀ q ∈ successors p i, s'.Knows q next := by
    intro p n hp
    obtain ⟨i, next, hi, hnext, hsucc⟩ := hs.entered p n hp
    exact ⟨i, next, hi, hnext, fun q hq => h.knows (hsucc q hq)⟩
  refine ⟨h.knows hs.start, fun p n hp => ?_⟩
  obtain ⟨⟨q, m⟩, rest, -, henter⟩ := h
  rcases enter_eq_ok henter with ⟨i, next, hi, hd, hnext, rfl⟩ | ⟨hd, rfl⟩
  · by_cases hne : q = p
    · subst hne
      rw [Array.getElem?_setIfInBounds_self_of_lt (Array.getElem?_eq_some_iff.1 hd).1] at hp
      cases hp
      refine ⟨i, next, hi, hnext, fun r hr => .inr (List.mem_append_left _ ?_)⟩
      exact List.mem_map.2 ⟨r, List.mem_reverse.2 hr, rfl⟩
    · exact hold p n ((Array.getElem?_setIfInBounds_ne hne).symm.trans hp)
  · exact hold p n hp

end Progress

/-! ### What all rounds come to -/

variable {k : Nat} {s : Progress}

/-- **Termination.** Whatever the order, there are no more rounds than there was room for. -/
theorem Rounds.length_le (h : Rounds method pool returnsVoid code k s) :
    k + s.room ≤ 2 * code.size + 1 := by
  induction h with
  | start =>
    show 0 + (2 * (Array.replicate code.size none).count none + 1) ≤ _
    exact Nat.le_of_eq (by rw [Array.count_replicate_self, Nat.zero_add])
  | take _ htakes ih =>
    have hlt := htakes.room_lt
    omega

/-- **Soundness.** Whatever the order, what has been entered is settled. -/
theorem Rounds.settled (h : Rounds method pool returnsVoid code k s) :
    s.Settled method pool returnsVoid code := by
  induction h with
  | start => exact Progress.settled_start _
  | take _ htakes ih => exact ih.of_takes htakes

/-- **Order.** The check makes rounds until nothing is pending, or until it gives up. The induction is
on the room that is left. -/
theorem exists_rounds_of_followPaths (h : Rounds method pool returnsVoid code k s) :
    ∃ k' s', Rounds method pool returnsVoid code k' s' ∧
      (s'.pending = [] ∧ followPaths method pool returnsVoid code s.depths s.pending = .ok () ∨
        ∃ e, s'.Refuses method pool returnsVoid code e ∧
          followPaths method pool returnsVoid code s.depths s.pending = .error e) := by
  induction hroom : s.room using Nat.strongRecOn generalizing k s with
  | ind room ih =>
    cases hpending : s.pending with
    | nil => exact ⟨k, s, h, .inl ⟨hpending, by rw [followPaths]⟩⟩
    | cons entry rest =>
      rw [followPaths_cons]
      cases henter : Progress.enter method pool returnsVoid code s.depths entry rest with
      | error e => exact ⟨k, s, h, .inr ⟨e, ⟨entry, rest, hpending ▸ .refl _, henter⟩, rfl⟩⟩
      | ok s' =>
        have htakes : s.Takes method pool returnsVoid code s' :=
          ⟨entry, rest, hpending ▸ .refl _, henter⟩
        exact ih s'.room (hroom ▸ htakes.room_lt) (h.take htakes) rfl

/-- The check of a body comes to the end of an order, and its answer says to which. -/
theorem exists_rounds_of_checkStack (method : String) (pool : Pool) (returnsVoid : Bool)
    (code : List Instruction) :
    ∃ k s, Rounds method pool returnsVoid code.toArray k s ∧
      (s.pending = [] ∧ checkStack method pool returnsVoid code = .ok () ∨
        ∃ e, s.Refuses method pool returnsVoid code.toArray e ∧
          checkStack method pool returnsVoid code = .error e) :=
  exists_rounds_of_followPaths .start

end Verifier

end Interpose
