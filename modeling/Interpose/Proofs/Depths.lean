import Interpose.Proofs.Executions
import Interpose.Proofs.PathRounds
/-!
# What verification says of a body

If the depth check follows all paths of a body to their end, the depths it has found are an
assignment that no instruction contradicts, with an empty stack at the start. Together with the
check of the operands this makes the body typed, and that is all that running it needs.

## Main results

* `Verifier.exists_depths_of_checkStack`: paths followed to their end leave depths behind
* `Verifier.exists_typed_of_checkBody`: a checked body is typed
-/

namespace Interpose

open View (Accepts)

namespace Verifier

variable {method : String} {pool : Pool} {returnsVoid : Bool}

/-! ### Depths -/

/-- An instruction that has been entered at a depth: it has its operands, and control goes to places
of the depth behind it. -/
def Entered (method : String) (pool : Pool) (returnsVoid : Bool) (code : Array Instruction)
    (depthAt : Nat → Option Nat) (p n : Nat) : Prop :=
  ∃ i next, code[p]? = some i ∧ depthAfter method pool returnsVoid p n i = .ok next ∧
    ∀ q ∈ successors p i, depthAt q = some next

/-- **Depths.** When nothing is pending any more, the depths that have been found are those of an empty
stack at the start, with every place entered. -/
theorem Rounds.exists_depths {code : Array Instruction} {k : Nat} {s : Progress}
    (h : Rounds method pool returnsVoid code k s) (hend : s.pending = []) :
    ∃ depthAt : Nat → Option Nat, depthAt 0 = some 0 ∧
      ∀ p n, depthAt p = some n → Entered method pool returnsVoid code depthAt p n := by
  have hknown : ∀ p n, s.Knows p n → s.depths[p]?.join = some n := by
    rintro p n (hmade | hmem)
    · exact Option.join_eq_some_iff.2 hmade
    · exact nomatch hend ▸ hmem
  refine ⟨fun p => s.depths[p]?.join, hknown 0 0 h.settled.start, fun p n hp => ?_⟩
  obtain ⟨i, next, hi, hnext, hsucc⟩ := h.settled.entered p n (Option.join_eq_some_iff.1 hp)
  exact ⟨i, next, hi, hnext, fun q hq => hknown q next (hsucc q hq)⟩

/-- A body whose paths have been followed to their end has such depths. -/
theorem exists_depths_of_checkStack {code : List Instruction}
    (h : checkStack method pool returnsVoid code = .ok ()) :
    ∃ depthAt : Nat → Option Nat, depthAt 0 = some 0 ∧
      ∀ p n, depthAt p = some n → Entered method pool returnsVoid code.toArray depthAt p n := by
  obtain ⟨k, s, hrounds, hend⟩ := exists_rounds_of_checkStack method pool returnsVoid code
  rcases hend with ⟨hpending, -⟩ | ⟨e, -, herror⟩
  · exact hrounds.exists_depths hpending
  · cases h.symm.trans herror

/-! ### Operands -/

theorem checkOperand_of_checkOperands {maxLocals : UInt16} {code : List Instruction} {start : Nat}
    (h : checkOperands method pool maxLocals start code = .ok ()) {p : Nat} {i : Instruction}
    (hi : code[p]? = some i) : checkOperand method pool maxLocals (start + p) i = .ok () := by
  induction code generalizing start p with
  | nil => exact nomatch hi
  | cons j rest ih =>
    unfold checkOperands at h
    split at h
    · cases h
    · rename_i hj
      cases p with
      | zero =>
        cases hi
        exact hj
      | succ p =>
        rw [Nat.add_succ, ← Nat.succ_add]
        exact ih h hi

/-- An instruction whose operand has been checked has an effect on the stack. -/
theorem accepts_of_checkOperand {maxLocals : UInt16} {p : Nat} {i : Instruction}
    (h : checkOperand method pool maxLocals p i = .ok ())
    (htag : ∀ tag, i = .unbox tag → (TypeDesc.ofTag? tag).isSome) :
    ∃ effect, Accepts pool (·.length = maxLocals.toNat) i effect := by
  have heffect : ∃ effect, Instruction.stackEffect? pool i = some effect := by
    cases i with
    | jump c _ => cases c <;> exact ⟨_, rfl⟩
    | field access _ => cases access <;> exact ⟨_, rfl⟩
    | invoke kind index =>
      simp only [checkOperand] at h
      cases hm : pool.method? index with
      | none => simp only [hm, reduceCtorEq] at h
      | some m =>
        cases hs : MethodDesc.parse m.descriptor with
        | error e => simp only [hm, hs, reduceCtorEq] at h
        | ok signature =>
          exact ⟨signature.stackEffect kind, by simp only [Instruction.stackEffect?, hm, hs]⟩
    | _ => exact ⟨_, rfl⟩
  obtain ⟨effect, heffect⟩ := heffect
  have hsome : ∀ {α : Type} {a : Option α} {e : VerifyError},
      (if a.isNone then Except.error e else .ok ()) = .ok () → a.isSome := by
    intro α a e h
    cases a with
    | none => simp only [Option.isNone_none, if_true, reduceCtorEq] at h
    | some => rfl
  have hslot : ∀ {slot : UInt16} {e : VerifyError},
      (if maxLocals ≤ slot then Except.error e else .ok ()) = .ok () →
        ∀ locals : List Value, locals.length = maxLocals.toNat → slot.toNat < locals.length := by
    intro slot e h locals hl
    split at h
    · cases h
    · rename_i hlt
      rw [hl]
      exact Nat.lt_of_not_le fun hle => hlt (UInt16.le_iff_toNat_le.2 hle)
  refine ⟨effect, heffect, ?_, ?_, ?_, ?_, ?_, htag⟩
  · rintro index rfl
    exact hsome h
  · rintro index (rfl | rfl | rfl) <;> exact hsome h
  · rintro access index rfl
    exact hsome h
  · rintro slot rfl
    exact hslot h
  · rintro slot rfl locals hl
    exact ⟨hslot h locals hl, fun v => by rw [List.length_set]; exact hl⟩

end Verifier

/-! ### Bodies -/

namespace Code

/-- Decoding resolves the instructions that it has split off, each in its place. -/
theorem exists_located_of_decode {bytes : Bytes} {code : List Instruction}
    (h : decode bytes = .ok code) :
    ∃ located, split bytes.length 0 bytes = .ok located ∧ code.length = located.length ∧
      ∀ (p : Nat) start i, located[p]? = some (start, i) →
        ∃ j, code[p]? = some j ∧ resolve (located.map Prod.fst) start i = .ok j := by
  unfold decode at h
  obtain ⟨located, hsplit, h⟩ := Results.bind_eq_ok h
  obtain ⟨hlen, hget⟩ := Results.mapM_eq_ok h
  exact ⟨located, hsplit, hlen, fun p start i hp => hget p (start, i) hp⟩

theorem isSome_ofTag?_of_resolve {starts : List Nat} {start : Nat} {i : InstructionOf Int32}
    {tag : UInt8} (h : resolve starts start i = .ok (.unbox tag)) :
    (TypeDesc.ofTag? tag).isSome := by
  unfold resolve at h
  split at h
  · dsimp only at h
    split at h <;> cases h
  · split at h
    · rename_i htag
      cases h
      rw [htag]
      rfl
    · cases h
  · rename_i hnot
    cases i <;> first | exact absurd rfl (hnot _) | cases h

/-- A tag that a body has been decoded with is one of a primitive type. -/
theorem isSome_ofTag?_of_decode {bytes : Bytes} {code : List Instruction}
    (h : decode bytes = .ok code) {tag : UInt8} (ht : .unbox tag ∈ code) :
    (TypeDesc.ofTag? tag).isSome := by
  obtain ⟨located, -, hlen, hget⟩ := exists_located_of_decode h
  obtain ⟨p, hp, hpi⟩ := List.getElem_of_mem ht
  have hp' : p < located.length := hlen ▸ hp
  obtain ⟨j, hj, hresolve⟩ := hget p located[p].1 located[p].2 (List.getElem?_eq_getElem hp')
  rw [List.getElem?_eq_getElem hp, hpi] at hj
  cases hj
  exact isSome_ofTag?_of_resolve hresolve

end Code

namespace Verifier

/-- The parts of the check of bodies. -/
theorem checkBody_eq_ok {method : String} {pool : Pool} {m : MethodDef} {signature : MethodDesc}
    (h : checkBody method pool m signature = .ok ()) :
    ∃ code, Code.decode m.code = .ok code ∧
      signature.arity + (!m.isStatic).toNat ≤ m.maxLocals.toNat ∧
      checkOperands method pool m.maxLocals 0 code = .ok () ∧
      checkStack method pool signature.ret.isVoid code = .ok () := by
  unfold checkBody at h
  dsimp only at h
  split at h
  · cases h
  rename_i hlocals
  split at h
  · cases h
  rename_i code hcode
  split at h
  · cases h
  rename_i hoperands
  exact ⟨code, hcode, Nat.le_of_not_lt hlocals, hoperands, h⟩

/-- An instruction of a body that has been checked is accepted, whether control gets to it or not. -/
theorem accepts_of_mem {bytes : Bytes} {code : List Instruction} {method : String} {pool : Pool}
    {maxLocals : UInt16} (hcode : Code.decode bytes = .ok code)
    (h : checkOperands method pool maxLocals 0 code = .ok ()) {p : Nat} {i : Instruction}
    (hi : code[p]? = some i) : ∃ effect, Accepts pool (·.length = maxLocals.toNat) i effect := by
  refine accepts_of_checkOperand (checkOperand_of_checkOperands h hi) fun tag htag => ?_
  subst htag
  exact Code.isSome_ofTag?_of_decode hcode (List.mem_of_getElem? hi)

/-- **Bodies.** A body that has been checked decodes, has room for the arguments, and is typed from
an empty stack on. -/
theorem exists_typed_of_checkBody {method : String} {pool : Pool} {m : MethodDef}
    {signature : MethodDesc} (h : checkBody method pool m signature = .ok ()) :
    ∃ code depthAt, Code.decode m.code = .ok code ∧
      signature.arity + (!m.isStatic).toNat ≤ m.maxLocals.toNat ∧ depthAt 0 = some 0 ∧
      Typed pool (·.length = m.maxLocals.toNat) signature.ret.isVoid code.toArray depthAt := by
  obtain ⟨code, hcode, hlocals, hoperands, hstack⟩ := checkBody_eq_ok h
  obtain ⟨depthAt, hstart, hentered⟩ := exists_depths_of_checkStack hstack
  refine ⟨code, depthAt, hcode, hlocals, hstart, fun p n hp => ?_⟩
  obtain ⟨i, next, hi, hnext, hsucc⟩ := hentered p n hp
  obtain ⟨effect, haccepts⟩ := accepts_of_mem hcode hoperands (List.getElem?_toArray ▸ hi)
  unfold depthAfter at hnext
  rw [haccepts.effect_eq, Option.getD_some] at hnext
  dsimp only at hnext
  split at hnext
  · cases hnext
  rename_i hpops
  split at hnext
  · cases hnext
  rename_i hreturn
  cases hnext
  exact ⟨i, effect, hi, haccepts, Nat.le_of_not_lt hpops, Bool.eq_false_iff.2 hreturn, hsucc⟩

end Verifier

end Interpose
