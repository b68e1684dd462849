import Interpose.Proofs.Verification
/-!
# Which bodies have stack depths

What the depth check is for can be said of a body alone. Control gets from an instruction to the target
of its jump, and to the next one unless it never falls through; what it gets to from the first
instruction is *reachable*. The body *has depths* if each reachable instruction can be given a depth, the
first one none, such that it has the operands it pops, every way on leads to an instruction with the
depth behind this one, and no reachable return contradicts the return type.

The check answers exactly this question, and so does any other order of taking the pending entries: it
comes to its end after at most two rounds for each instruction and one more, with nothing pending if the
body has depths, and giving up otherwise. Instructions that control never gets to are not looked at.

## Main definitions

* `Code.Edge`, `Code.Reachable`: where control may get to
* `Verifier.HasDepths`

## Main results

* `Verifier.exists_hasDepths_iff`: depths of reachable instructions are depths that all agree with
* `Verifier.checkStack_decides_hasDepths`: the check is exact and ends, in every order
-/

namespace Interpose

variable {method : String} {pool : Pool} {maxLocals : UInt16} {returnsVoid : Bool}
variable {code : List Instruction}

namespace Code

/-- A way from one instruction of a body to another place: its jump, or falling through. -/
inductive Edge (code : List Instruction) : Nat → Nat → Prop
  | jump {p q : Nat} {i : Instruction} : code[p]? = some i → i.target? = some q → Edge code p q
  | next {p : Nat} {i : Instruction} : code[p]? = some i → i.opcode.isTerminator = false →
      Edge code p (p + 1)

/-- A place that control may get to from the start. -/
inductive Reachable (code : List Instruction) : Nat → Prop
  | start : Reachable code 0
  | along {p q : Nat} : Reachable code p → Edge code p q → Reachable code q

theorem edge_iff_mem_successors {p q : Nat} {i : Instruction} (hi : code[p]? = some i) :
    Edge code p q ↔ q ∈ Verifier.successors p i := by
  unfold Verifier.successors
  rw [List.mem_append, Option.mem_toList]
  constructor
  · rintro (⟨hj, htarget⟩ | ⟨hj, hnext⟩)
    · obtain rfl := Option.some.inj (hi.symm.trans hj)
      exact .inl htarget
    · obtain rfl := Option.some.inj (hi.symm.trans hj)
      rw [hnext]
      exact .inr List.mem_cons_self
  · rintro (htarget | hnext)
    · exact .jump hi htarget
    · split at hnext
      · exact nomatch hnext
      · obtain rfl := List.mem_singleton.1 hnext
        exact .next hi (Bool.eq_false_iff.2 ‹_›)

end Code

namespace Verifier

open Code (Edge Reachable)

/-- Depths of the reachable instructions of a body. -/
structure HasDepths (pool : Pool) (returnsVoid : Bool) (code : List Instruction)
    (depth : Nat → Nat) : Prop where
  start : depth 0 = 0
  pops : ∀ p i effect, Reachable code p → code[p]? = some i → i.stackEffect? pool = some effect →
    effect.pops ≤ depth p
  edges : ∀ p q i effect, Reachable code p → code[p]? = some i →
    i.stackEffect? pool = some effect → Edge code p q →
      q < code.length ∧ depth q = depth p - effect.pops + effect.pushes
  ret : ∀ p, Reachable code p → code[p]? = some (.simple .ret) → returnsVoid = false
  retVoid : ∀ p, Reachable code p → code[p]? = some (.simple .retVoid) → returnsVoid = true

theorem returnMismatch_eq_false_iff {i : Instruction} :
    returnMismatch returnsVoid i = false ↔
      (i = .simple .ret → returnsVoid = false) ∧ (i = .simple .retVoid → returnsVoid = true) := by
  unfold returnMismatch
  split <;> simp_all

/-- Depths that the instructions agree with are there for all that is reachable. -/
theorem Agrees.exists_of_reachable {depthAt : Nat → Option Nat}
    (h : Agrees pool returnsVoid code depthAt) (hstart : depthAt 0 = some 0) {p : Nat}
    (hp : Reachable code p) : ∃ n, depthAt p = some n := by
  induction hp with
  | start => exact ⟨0, hstart⟩
  | along _ hedge ih =>
    obtain ⟨n, hn⟩ := ih
    obtain ⟨i, effect, hi, -, -, -, hsucc⟩ := h _ n hn
    exact ⟨_, hsucc _ ((Code.edge_iff_mem_successors hi).1 hedge)⟩

theorem Agrees.hasDepths {depthAt : Nat → Option Nat} (h : Agrees pool returnsVoid code depthAt)
    (hstart : depthAt 0 = some 0) :
    HasDepths pool returnsVoid code fun p => (depthAt p).getD 0 := by
  -- what the assignment says of an instruction that control gets to
  have hplace : ∀ {p i}, Reachable code p → code[p]? = some i → ∃ n effect, depthAt p = some n ∧
      i.stackEffect? pool = some effect ∧ effect.pops ≤ n ∧ returnMismatch returnsVoid i = false ∧
      ∀ q, Edge code p q → depthAt q = some (n - effect.pops + effect.pushes) := by
    intro p i hp hi
    obtain ⟨n, hn⟩ := h.exists_of_reachable hstart hp
    obtain ⟨j, effect, hj, heffect, hpops, hreturn, hsucc⟩ := h p n hn
    obtain rfl := Option.some.inj (hi.symm.trans hj)
    exact ⟨n, effect, hn, heffect, hpops, hreturn, fun q hq =>
      hsucc q ((Code.edge_iff_mem_successors hi).1 hq)⟩
  refine ⟨by rw [hstart]; rfl, fun p i effect hp hi heffect => ?_,
    fun p q i effect hp hi heffect hq => ?_, fun p hp hi => ?_, fun p hp hi => ?_⟩
  · obtain ⟨n, effect', hn, heffect', hpops, -⟩ := hplace hp hi
    obtain rfl := Option.some.inj (heffect.symm.trans heffect')
    rw [hn]
    exact hpops
  · obtain ⟨n, effect', hn, heffect', -, -, hedge⟩ := hplace hp hi
    obtain rfl := Option.some.inj (heffect.symm.trans heffect')
    have hnext := hedge q hq
    obtain ⟨j, -, hj, -⟩ := h q _ hnext
    rw [hn, hnext]
    exact ⟨(List.getElem?_eq_some_iff.1 hj).1, rfl⟩
  · obtain ⟨_, _, -, -, -, hreturn, -⟩ := hplace hp hi
    exact (returnMismatch_eq_false_iff.1 hreturn).1 rfl
  · obtain ⟨_, _, -, -, -, hreturn, -⟩ := hplace hp hi
    exact (returnMismatch_eq_false_iff.1 hreturn).2 rfl

/-- A reachable place of a body with depths is one of its instructions. -/
theorem HasDepths.lt_length {depth : Nat → Nat} (h : HasDepths pool returnsVoid code depth)
    (hne : code ≠ []) (hfound : ∀ i ∈ code, Found pool maxLocals i) {p : Nat}
    (hp : Reachable code p) : p < code.length := by
  induction hp with
  | start => exact List.length_pos_iff.2 hne
  | @along p q hp hedge ih =>
    have hi : code[p]? = some code[p] := List.getElem?_eq_getElem ih
    obtain ⟨effect, heffect⟩ := (hfound _ (List.getElem_mem ih)).exists_effect
    exact (h.edges p q _ effect hp hi heffect hedge).1

open Classical in
theorem HasDepths.agrees {depth : Nat → Nat} (h : HasDepths pool returnsVoid code depth)
    (hne : code ≠ []) (hfound : ∀ i ∈ code, Found pool maxLocals i) :
    Agrees pool returnsVoid code fun p => if Reachable code p then some (depth p) else none := by
  intro p n hn
  obtain ⟨hp, heq⟩ := Option.ite_none_right_eq_some.1 hn
  cases heq
  have hlt := h.lt_length hne hfound hp
  have hi : code[p]? = some code[p] := List.getElem?_eq_getElem hlt
  obtain ⟨effect, heffect⟩ := (hfound _ (List.getElem_mem hlt)).exists_effect
  refine ⟨code[p], effect, hi, heffect, h.pops p _ effect hp hi heffect,
    returnMismatch_eq_false_iff.2 ⟨fun hret => h.ret p hp (hret ▸ hi),
      fun hret => h.retVoid p hp (hret ▸ hi)⟩, fun q hq => ?_⟩
  have hedge : Edge code p q := (Code.edge_iff_mem_successors hi).2 hq
  dsimp only
  rw [if_pos (hp.along hedge), (h.edges p q _ effect hp hi heffect hedge).2]

/-- **Depths.** The reachable instructions can be given depths exactly if there are depths that all
instructions agree with. -/
theorem exists_hasDepths_iff (hne : code ≠ []) (hfound : ∀ i ∈ code, Found pool maxLocals i) :
    (∃ depth, HasDepths pool returnsVoid code depth) ↔
      ∃ depthAt, depthAt 0 = some 0 ∧ Agrees pool returnsVoid code depthAt := by
  constructor
  · rintro ⟨depth, h⟩
    refine ⟨_, ?_, h.agrees hne hfound⟩
    rw [if_pos .start, h.start]
  · rintro ⟨depthAt, hstart, h⟩
    exact ⟨_, h.hasDepths hstart⟩

/-- As long as something is pending, an order goes on or gives up. -/
theorem Progress.takes_or_refuses (s : Progress) (h : s.pending ≠ []) :
    (∃ s', s.Takes method pool returnsVoid code.toArray s') ∨
      ∃ e, s.Refuses method pool returnsVoid code.toArray e := by
  obtain ⟨entry, rest, hpending⟩ := List.exists_cons_of_ne_nil h
  cases henter : Progress.enter method pool returnsVoid code.toArray s.depths entry rest with
  | ok s' => exact .inl ⟨s', entry, rest, hpending ▸ .refl _, henter⟩
  | error e => exact .inr ⟨e, entry, rest, hpending ▸ .refl _, henter⟩

/-- **Exactness and termination.** The check of a body with found operands ends like one of the orders:
with nothing pending it accepts, giving up it reports what it gave up on. It accepts exactly the bodies
that have depths. And in every order there are at most two rounds for each instruction and one more; as
long as something is pending the order goes on or gives up; it gets through only if the check accepts,
and gives up only if the check does not. -/
theorem checkStack_decides_hasDepths (hne : code ≠ [])
    (hoperands : checkOperands method pool maxLocals 0 code = .ok ()) :
    (∃ k s, Rounds method pool returnsVoid code.toArray k s ∧
      (s.pending = [] ∧ checkStack method pool returnsVoid code = .ok () ∨
        ∃ e, s.Refuses method pool returnsVoid code.toArray e ∧
          checkStack method pool returnsVoid code = .error e)) ∧
    (checkStack method pool returnsVoid code = .ok () ↔
      ∃ depth, HasDepths pool returnsVoid code depth) ∧
    ∀ k s, Rounds method pool returnsVoid code.toArray k s →
      k ≤ 2 * code.length + 1 ∧
      (s.pending ≠ [] → (∃ s', s.Takes method pool returnsVoid code.toArray s') ∨
        ∃ e, s.Refuses method pool returnsVoid code.toArray e) ∧
      (s.pending = [] → checkStack method pool returnsVoid code = .ok ()) ∧
      ∀ e, s.Refuses method pool returnsVoid code.toArray e →
        checkStack method pool returnsVoid code ≠ .ok () := by
  have hfound : ∀ i ∈ code, Found pool maxLocals i :=
    (checkOperands_eq_ok_iff method 0).1 hoperands
  refine ⟨exists_rounds_of_checkStack method pool returnsVoid code, ?_, fun k s hrounds => ?_⟩
  · rw [checkStack_eq_ok_iff hfound, exists_hasDepths_iff hne hfound]
  refine ⟨?_, s.takes_or_refuses, fun hend => ?_, fun e hrefuses hok => ?_⟩
  · have hroom := hrounds.length_le
    rw [List.size_toArray] at hroom
    exact Nat.le_trans (Nat.le_add_right k s.room) hroom
  · obtain ⟨depthAt, hstart, hentered⟩ := hrounds.exists_depths hend
    exact (checkStack_eq_ok_iff hfound).2 ⟨depthAt, hstart, agrees_of_entered hfound hentered⟩
  · obtain ⟨depthAt, hstart, hagrees⟩ := (checkStack_eq_ok_iff hfound).1 hok
    exact hagrees.not_refuses hstart hrounds e hrefuses

/-- A loop with a way out. The last instruction would find nothing to pop, but control never gets to
it. -/
def loop : List Instruction :=
  [.simple .constTrue, .jump .ifFalse 3, .jump .always 0, .simple .retVoid, .simple .pop]

theorem loop_has_depths : loop ≠ [] ∧ checkOperands "f" {} 0 0 loop = .ok () ∧
    (∃ depth, HasDepths {} true loop depth) ∧
    ∀ k s, Rounds "f" {} true loop.toArray k s → k ≤ 11 := by
  have hne : loop ≠ [] := by decide
  have hoperands : checkOperands "f" {} 0 0 loop = .ok () := by decide
  have hstack : checkStack "f" {} true loop = .ok () := by decide +kernel
  obtain ⟨-, hexact, horders⟩ := checkStack_decides_hasDepths hne hoperands
  exact ⟨hne, hoperands, hexact.1 hstack, fun k s hrounds => (horders k s hrounds).1⟩

end Verifier

end Interpose
