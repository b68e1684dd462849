import Interpose.Proofs.Readers
import Interpose.Proofs.WellFormedCode
/-!
# What is wrong with a body

A body is walked from its start, from each opcode to the place behind its operand. The walk may stop
at a byte that is no opcode, may end behind the bytes, because the last operand is cut off, or end
with the bytes. Only in the last case are there instructions to be judged, and then the first one
with a fault counts: a jump that does not lead to an instruction, or a tag of no primitive type.
This is the order in which the three kinds of reports take precedence, wherever in the body they
apply.

The walk is a relation here and knows nothing of operands but how many bytes an opcode takes.
`Code.split` reads operands on its way. To see that sizes and reads agree, the two jobs are also
done one after the other: `Code.boundaries` goes by sizes alone, and `Code.readInstructions` reads
each operand by its type, as a reader does, up to the end of the bytes. Once the first has been
through, the second meets all that it needs.

## Main definitions

* `Code.Boundary`, `Code.Starts`, `Code.HasAt`: the walk, and what stands on its way
* `Code.Fault`: what can be wrong with an instruction
* `Code.Reports`: what there is to report of a body
* `Code.boundaries`, `Code.readInstructions`: the two passes, on their own

## Main results

* `Code.decode_eq_error_iff`, `Code.exists_decode_eq_ok_iff`: what is reported
* `Code.decode_eq_passes`: reading does what the two passes do
* `Code.decode_goes_by_boundaries`: all of it together
-/

namespace Interpose

namespace Code

variable {bytes : Bytes} {p q : Nat}

/-! ### The walk -/

/-- A place that is met on the way from the start of a body, from each opcode to the place behind
its operand. The last one may lie behind the bytes. -/
inductive Boundary (bytes : Bytes) : Nat → Prop
  | start : Boundary bytes 0
  | next {p : Nat} {b : UInt8} {op : Opcode} (hp : Boundary bytes p) (hb : bytes[p]? = some b)
      (hop : Opcode.ofByte? b = some op) : Boundary bytes (p + 1 + op.operandSize)

/-- An instruction starts at a place. -/
def Starts (bytes : Bytes) (p : Nat) : Prop := Boundary bytes p ∧ p < bytes.length

/-- An instruction, with all of its operand, stands at a place. -/
structure HasAt (bytes : Bytes) (p : Nat) (i : InstructionOf Int32) : Prop where
  boundary : Boundary bytes p
  encoded : i.encode <+: bytes.drop p

/-- No instruction starts within another. The induction is on the later one of the two. -/
theorem Boundary.next_le {b : UInt8} {op : Opcode} (hp : Boundary bytes p) (hq : Boundary bytes q)
    (hlt : p < q) (hb : bytes[p]? = some b) (hop : Opcode.ofByte? b = some op) :
    p + 1 + op.operandSize ≤ q := by
  induction q using Nat.strongRecOn generalizing p b op with
  | _ q ih =>
    cases hq with
    | start => omega
    | @next q' b' op' hq' hb' hop' =>
      rcases Nat.lt_trichotomy p q' with hlt' | rfl | hgt
      · have hle := ih q' (by omega) hp hq' hlt' hb hop
        omega
      · obtain rfl : b = b' := Option.some.inj (hb.symm.trans hb')
        obtain rfl : op = op' := Option.some.inj (hop.symm.trans hop')
        exact Nat.le_refl _
      · have hle := ih p hlt hq' hp hgt hb' hop'
        omega

/-- The walk goes on at opcodes only. -/
theorem Boundary.exists_opcode (hp : Boundary bytes p) (hq : Boundary bytes q) (hlt : p < q) :
    ∃ b op, bytes[p]? = some b ∧ Opcode.ofByte? b = some op := by
  induction hq with
  | start => omega
  | @next q' b' op' hq' hb' hop' ih =>
    rcases Nat.lt_trichotomy p q' with hlt' | rfl | hgt
    · exact ih hlt'
    · exact ⟨b', op', hb', hop'⟩
    · have hle := hq'.next_le hp hgt hb' hop'
      omega

theorem Boundary.lt_length (hp : Boundary bytes p) (hq : Boundary bytes q) (hlt : p < q) :
    p < bytes.length := by
  obtain ⟨b, _, hb, -⟩ := hp.exists_opcode hq hlt
  exact (List.getElem?_eq_some_iff.1 hb).1

theorem HasAt.getElem? {i : InstructionOf Int32} (h : HasAt bytes p i) :
    bytes[p]? = some i.opcode.byte := by
  obtain ⟨rest, hrest⟩ := h.encoded
  have hdrop : (bytes.drop p)[0]? = some i.opcode.byte := by
    rw [← hrest]
    rfl
  rwa [List.getElem?_drop] at hdrop

theorem HasAt.starts {i : InstructionOf Int32} (h : HasAt bytes p i) : Starts bytes p :=
  ⟨h.boundary, (List.getElem?_eq_some_iff.1 h.getElem?).1⟩

/-- At most one instruction stands at a place. -/
theorem HasAt.unique {i j : InstructionOf Int32} (hi : HasAt bytes p i) (hj : HasAt bytes p j) :
    i = j := by
  have hbyte : i.opcode.byte = j.opcode.byte := Option.some.inj (hi.getElem?.symm.trans hj.getElem?)
  have hopcode : i.opcode = j.opcode := by
    have h := congrArg Opcode.ofByte? hbyte
    rw [Opcode.ofByte?_byte, Opcode.ofByte?_byte] at h
    exact Option.some.inj h
  have hsize : i.encode.length = j.encode.length := by
    rw [i.length_encode, j.length_encode, InstructionOf.size, InstructionOf.size, hopcode]
  have hencode : i.encode = j.encode :=
    (List.prefix_of_prefix_length_le hi.encoded hj.encoded (Nat.le_of_eq hsize)).eq_of_length hsize
  have hoperand : i.operandBytes = j.operandBytes := (List.cons.inj hencode).2
  rw [← i.withOperand_operandBytes, ← j.withOperand_operandBytes, hopcode, hoperand]

/-! ### Reports -/

/-- What is wrong with the instruction at a place: it jumps to where no instruction starts, or has a
tag of no primitive type. -/
inductive Fault (bytes : Bytes) (p : Nat) : DecodeError → Prop
  | jump {c : Condition} {distance : Int32} (hi : HasAt bytes p (.jump c distance))
      (htarget : ∀ q, Starts bytes q → (p + 5 : Nat) + distance.toInt ≠ (q : Int)) :
      Fault bytes p (.invalidJumpTarget p ((p + 5 : Nat) + distance.toInt))
  | tag {tag : UInt8} (hi : HasAt bytes p (.unbox tag)) (htag : TypeDesc.ofTag? tag = none) :
      Fault bytes p (.invalidTypeTag tag (p + 1))

/-- What there is to report of a body: the byte at which the walk stops, or that the walk ends
behind the bytes, or else the first fault. -/
inductive Reports (bytes : Bytes) : DecodeError → Prop
  | opcode {p : Nat} {b : UInt8} (hp : Boundary bytes p) (hb : bytes[p]? = some b)
      (hop : Opcode.ofByte? b = none) : Reports bytes (.invalidOpcode b p)
  | cut {p : Nat} (hp : Boundary bytes p) (hlt : bytes.length < p) :
      Reports bytes (.unexpectedEnd bytes.length)
  | fault {p : Nat} {e : DecodeError} (hend : Boundary bytes bytes.length) (he : Fault bytes p e)
      (hfirst : ∀ q < p, ∀ e', ¬Fault bytes q e') : Reports bytes e

theorem Fault.exists_hasAt {e : DecodeError} (h : Fault bytes p e) : ∃ i, HasAt bytes p i := by
  cases h with
  | jump hi => exact ⟨_, hi⟩
  | tag hi => exact ⟨_, hi⟩

theorem Fault.unique {e e' : DecodeError} (h : Fault bytes p e) (h' : Fault bytes p e') :
    e = e' := by
  cases h with
  | jump hi =>
    cases h' with
    | jump hi' =>
      cases hi.unique hi'
      rfl
    | tag hi' => cases hi.unique hi'
  | tag hi =>
    cases h' with
    | jump hi' => cases hi.unique hi'
    | tag hi' =>
      cases hi.unique hi'
      rfl

/-- Nothing is met behind a byte that is no opcode. -/
theorem Boundary.le_of_stop {b : UInt8} (hp : Boundary bytes p) (hb : bytes[p]? = some b)
    (hop : Opcode.ofByte? b = none) (hq : Boundary bytes q) : q ≤ p := by
  refine Nat.le_of_not_lt fun hlt => ?_
  obtain ⟨b', op, hb', hop'⟩ := hp.exists_opcode hq hlt
  obtain rfl : b = b' := Option.some.inj (hb.symm.trans hb')
  exact nomatch hop.symm.trans hop'

/-- Where the walk ends with the bytes it goes no farther. -/
theorem Boundary.le_length (hend : Boundary bytes bytes.length) (hp : Boundary bytes p) :
    p ≤ bytes.length :=
  Nat.le_of_not_lt fun hlt => Nat.lt_irrefl _ (hend.lt_length hp hlt)

/-- There is at most one thing to report. -/
theorem Reports.unique {e e' : DecodeError} (h : Reports bytes e) (h' : Reports bytes e') :
    e = e' := by
  cases h with
  | opcode hp hb hop =>
    have hlt := (List.getElem?_eq_some_iff.1 hb).1
    cases h' with
    | opcode hp' hb' hop' =>
      obtain rfl := Nat.le_antisymm (hp'.le_of_stop hb' hop' hp) (hp.le_of_stop hb hop hp')
      cases Option.some.inj (hb.symm.trans hb')
      rfl
    | cut hp' hlt' => exact absurd (hp.le_of_stop hb hop hp') (by omega)
    | fault hend => exact absurd (hp.le_of_stop hb hop hend) (by omega)
  | cut hp hlt =>
    cases h' with
    | opcode hp' hb' hop' =>
      have hlt' := (List.getElem?_eq_some_iff.1 hb').1
      exact absurd (hp'.le_of_stop hb' hop' hp) (by omega)
    | cut => rfl
    | fault hend => exact absurd (hend.le_length hp) (by omega)
  | @fault p _ hend he hfirst =>
    cases h' with
    | opcode hp' hb' hop' =>
      have hlt' := (List.getElem?_eq_some_iff.1 hb').1
      exact absurd (hp'.le_of_stop hb' hop' hend) (by omega)
    | cut hp' hlt' => exact absurd (hend.le_length hp') (by omega)
    | @fault q _ _ he' hfirst' =>
      rcases Nat.lt_trichotomy p q with hlt | rfl | hlt
      · exact absurd he (hfirst' p hlt _)
      · exact he.unique he'
      · exact absurd he' (hfirst q hlt _)

/-! ### Splitting -/

section Ahead

variable {b : UInt8} {rest : Bytes}

theorem getElem?_of_drop (h : bytes.drop p = b :: rest) : bytes[p]? = some b := by
  rw [← List.head?_drop, h, List.head?_cons]

theorem length_of_drop (h : bytes.drop p = b :: rest) : bytes.length = p + 1 + rest.length := by
  have hlength : bytes.length - p = rest.length + 1 := by
    rw [← List.length_drop, h, List.length_cons]
  omega

theorem drop_of_drop (h : bytes.drop p = b :: rest) (n : Nat) :
    bytes.drop (p + 1 + n) = rest.drop n := by
  rw [Nat.add_assoc, ← List.drop_drop, h, Nat.add_comm, List.drop_succ_cons]

end Ahead

/-- What is taken off the bytes for an instruction is the instruction that stands there. -/
theorem hasAt_of_take {b : UInt8} {rest : Bytes} {op : Opcode} (hp : Boundary bytes p)
    (hdrop : bytes.drop p = b :: rest) (hop : Opcode.ofByte? b = some op)
    (hlen : (rest.take op.operandSize).length = op.operandSize) :
    HasAt bytes p (op.withOperand (rest.take op.operandSize)) := by
  refine ⟨hp, ?_⟩
  rw [hdrop, InstructionOf.encode_withOperand hlen, Opcode.byte_of_ofByte? hop]
  exact List.cons_prefix_cons.2 ⟨rfl, List.take_prefix _ _⟩

/-- What splitting finds from a place of the walk on: what stands there, in order, up to the end of
the bytes. -/
structure Splits (bytes : Bytes) (start : Nat) (located : List (Nat × InstructionOf Int32)) :
    Prop where
  complete : Boundary bytes bytes.length
  standing : ∀ p i, (p, i) ∈ located → start ≤ p ∧ HasAt bytes p i
  covers : ∀ p, Starts bytes p → start ≤ p → ∃ i, (p, i) ∈ located
  sorted : located.Pairwise (·.1 < ·.1)

theorem splits_of_split {start : Nat} {ahead : Bytes} {located : List (Nat × InstructionOf Int32)}
    (hstart : Boundary bytes start) (hdrop : bytes.drop start = ahead) (hle : start ≤ bytes.length)
    (h : split bytes.length start ahead = .ok located) : Splits bytes start located := by
  fun_induction split bytes.length start ahead generalizing located with
  | case1 start =>
    cases h
    obtain rfl := Nat.le_antisymm hle (List.drop_eq_nil_iff.1 hdrop)
    exact ⟨hstart, fun _ _ hmem => absurd hmem List.not_mem_nil,
      fun p hp hge => absurd hp.2 (Nat.not_lt_of_le hge), .nil⟩
  | case2 | case3 | case5 => cases h
  | case4 start b rest op hop operand hlen located' hrest =>
    rename_i ih
    cases h
    have hb := getElem?_of_drop hdrop
    have hle' : start + 1 + op.operandSize ≤ bytes.length := by
      rw [List.length_take] at hlen
      rw [length_of_drop hdrop]
      omega
    obtain ⟨hcomplete, hstanding, hcovers, hsorted⟩ :=
      ih (hstart.next hb hop) (drop_of_drop hdrop _) hle' hrest
    refine ⟨hcomplete, ?_, ?_, ?_⟩
    · intro p i hmem
      rcases List.mem_cons.1 hmem with heq | hmem
      · cases heq
        exact ⟨Nat.le_refl _, hasAt_of_take hstart hdrop hop hlen⟩
      · obtain ⟨hge, hi⟩ := hstanding p i hmem
        exact ⟨by omega, hi⟩
    · intro p hp hge
      rcases Nat.eq_or_lt_of_le hge with rfl | hlt
      · exact ⟨_, List.mem_cons_self⟩
      · obtain ⟨i, hmem⟩ := hcovers p hp (hstart.next_le hp.1 hlt hb hop)
        exact ⟨i, List.mem_cons_of_mem _ hmem⟩
    · refine List.pairwise_cons.2 ⟨fun x hmem => ?_, hsorted⟩
      have hge := (hstanding x.1 x.2 hmem).1
      show start < x.1
      omega

theorem reports_of_split {start : Nat} {ahead : Bytes} {e : DecodeError}
    (hstart : Boundary bytes start) (hdrop : bytes.drop start = ahead)
    (h : split bytes.length start ahead = .error e) : Reports bytes e := by
  fun_induction split bytes.length start ahead with
  | case1 | case4 => cases h
  | case2 start b rest hop =>
    cases h
    exact .opcode hstart (getElem?_of_drop hdrop) hop
  | case3 start b rest op hop operand hlen e' hrest =>
    rename_i ih
    cases h
    exact ih (hstart.next (getElem?_of_drop hdrop) hop) (drop_of_drop hdrop _) hrest
  | case5 start b rest op hop operand hlen =>
    cases h
    refine .cut (hstart.next (getElem?_of_drop hdrop) hop) ?_
    have hshort : min op.operandSize rest.length ≠ op.operandSize := by rwa [← List.length_take]
    rw [length_of_drop hdrop]
    omega

/-! ### Judging instructions -/

theorem labelAt?_eq_none {starts : List Nat} {target : Int} :
    labelAt? starts target = none ↔ ∀ q ∈ starts, target ≠ (q : Int) := by
  unfold labelAt?
  split
  case isTrue hnonneg =>
    rw [List.idxOf?_eq_none_iff]
    constructor
    · rintro h q hq rfl
      exact h hq
    · intro h hmem
      exact h _ hmem (Int.toNat_of_nonneg hnonneg).symm
  case isFalse hneg =>
    refine ⟨fun _ q _ heq => hneg ?_, fun _ => rfl⟩
    rw [heq]
    exact Int.natCast_nonneg q

/-- The instruction at a place is refused for its fault. -/
theorem resolve_eq_error_iff {starts : List Nat} {i : InstructionOf Int32} {e : DecodeError}
    (hstarts : ∀ q, q ∈ starts ↔ Starts bytes q) (hi : HasAt bytes p i) :
    resolve starts p i = .error e ↔ Fault bytes p e := by
  constructor
  · intro h
    cases i with
    | jump c distance =>
      unfold resolve at h
      dsimp only at h
      split at h
      · cases h
      · rename_i hnone
        cases h
        exact .jump hi fun q hq => labelAt?_eq_none.1 hnone q ((hstarts q).2 hq)
    | unbox tag =>
      unfold resolve at h
      dsimp only at h
      split at h
      · cases h
      · rename_i hnone
        cases h
        exact .tag hi hnone
    | _ => cases h
  · intro h
    cases h with
    | jump hi' htarget =>
      cases hi.unique hi'
      have hnone := labelAt?_eq_none.2 fun q hq => htarget q ((hstarts q).1 hq)
      unfold resolve
      dsimp only
      rw [hnone]
    | tag hi' htag =>
      cases hi.unique hi'
      unfold resolve
      dsimp only
      rw [htag]

theorem Splits.mem_starts {located : List (Nat × InstructionOf Int32)}
    (h : Splits bytes 0 located) :
    q ∈ located.map Prod.fst ↔ Starts bytes q := by
  rw [List.mem_map]
  constructor
  · rintro ⟨⟨p, i⟩, hmem, rfl⟩
    exact (h.standing p i hmem).2.starts
  · intro hq
    obtain ⟨i, hmem⟩ := h.covers q hq (Nat.zero_le q)
    exact ⟨(q, i), hmem, rfl⟩

/-- A fault is that of an instruction that has been found. -/
theorem Splits.exists_of_fault {located : List (Nat × InstructionOf Int32)} {e : DecodeError}
    (h : Splits bytes 0 located) (he : Fault bytes p e) :
    ∃ i, (p, i) ∈ located ∧ resolve (located.map Prod.fst) p i = .error e := by
  obtain ⟨_, hi⟩ := he.exists_hasAt
  obtain ⟨i, hmem⟩ := h.covers p hi.starts (Nat.zero_le p)
  exact ⟨i, hmem, (resolve_eq_error_iff (fun q => h.mem_starts) (h.standing p i hmem).2).2 he⟩

theorem splits_of_decode {code : List Instruction} (h : decode bytes = .ok code) :
    Boundary bytes bytes.length ∧ ∀ p e, ¬Fault bytes p e := by
  unfold decode at h
  obtain ⟨located, hsplit, h⟩ := Results.bind_eq_ok h
  have hlocated := splits_of_split .start rfl (Nat.zero_le _) hsplit
  refine ⟨hlocated.complete, fun p e he => ?_⟩
  obtain ⟨i, hmem, herror⟩ := hlocated.exists_of_fault he
  obtain ⟨n, hn⟩ := List.getElem?_of_mem hmem
  obtain ⟨_, -, hok⟩ := (Results.mapM_eq_ok h).2 n (p, i) hn
  cases hok.symm.trans herror

/-- The first instruction that is refused has the first fault. -/
theorem Splits.reports {located : List (Nat × InstructionOf Int32)} {e : DecodeError}
    (h : Splits bytes 0 located)
    (he : located.mapM (fun (start, i) => resolve (located.map Prod.fst) start i) = .error e) :
    Reports bytes e := by
  obtain ⟨before, ⟨p, i⟩, after, hsplit, hresolve, hbefore⟩ := Results.mapM_eq_error he
  have hi : HasAt bytes p i := (h.standing p i (by rw [hsplit]; simp)).2
  refine .fault h.complete ((resolve_eq_error_iff (fun q => h.mem_starts) hi).1 hresolve) ?_
  intro q hlt e' he'
  obtain ⟨j, hmem, herror⟩ := h.exists_of_fault he'
  have hsorted := h.sorted
  rw [hsplit] at hmem hsorted
  rcases List.mem_append.1 hmem with hmem | hmem
  · obtain ⟨_, hok⟩ := hbefore _ hmem
    cases hok.symm.trans herror
  · -- What comes after the instruction stands behind it.
    have hge : p ≤ q := by
      rcases List.mem_cons.1 hmem with heq | hmem
      · cases heq
        exact Nat.le_refl _
      · exact Nat.le_of_lt ((List.pairwise_cons.1 (List.pairwise_append.1 hsorted).2.1).1 _ hmem)
    omega

theorem reports_of_decode {e : DecodeError} (h : decode bytes = .error e) : Reports bytes e := by
  unfold decode at h
  cases hsplit : split bytes.length 0 bytes with
  | error e' =>
    rw [hsplit] at h
    cases h
    exact reports_of_split .start rfl hsplit
  | ok located =>
    rw [hsplit] at h
    exact (splits_of_split .start rfl (Nat.zero_le _) hsplit).reports h

/-- A body without a fault, on which the walk ends with the bytes, gives nothing to report. -/
theorem not_reports {e : DecodeError} (hend : Boundary bytes bytes.length)
    (hfault : ∀ p e, ¬Fault bytes p e) : ¬Reports bytes e := by
  intro he
  cases he with
  | opcode hp hb hop =>
    have hlt := (List.getElem?_eq_some_iff.1 hb).1
    exact absurd (hp.le_of_stop hb hop hend) (Nat.not_le_of_lt hlt)
  | cut hp hlt => exact absurd (hend.le_length hp) (Nat.not_le_of_lt hlt)
  | fault _ he => exact hfault _ _ he

/-- **Refused bodies.** What is reported of a body is what there is to report. -/
theorem decode_eq_error_iff {e : DecodeError} : decode bytes = .error e ↔ Reports bytes e := by
  refine ⟨reports_of_decode, fun he => ?_⟩
  cases h : decode bytes with
  | error e' => exact congrArg Except.error ((reports_of_decode h).unique he)
  | ok code =>
    obtain ⟨hend, hfault⟩ := splits_of_decode h
    exact absurd he (not_reports hend hfault)

/-- **Accepted bodies.** The walk ends with the bytes, and no instruction has a fault. -/
theorem exists_decode_eq_ok_iff :
    (∃ code, decode bytes = .ok code) ↔ Boundary bytes bytes.length ∧ ∀ p e, ¬Fault bytes p e := by
  constructor
  · rintro ⟨code, h⟩
    exact splits_of_decode h
  · rintro ⟨hend, hfault⟩
    cases h : decode bytes with
    | ok code => exact ⟨code, rfl⟩
    | error e => exact absurd (reports_of_decode h) (not_reports hend hfault)

/-! ### The two passes -/

end Code

/-- Reads the operand of an opcode by its type. -/
def Opcode.readOperand : Opcode → Reader (InstructionOf Int32)
  | .simple op => return .simple op
  | .constInt => return .constInt (← Reader.i32)
  | .constDouble => return .constDouble (← Reader.u64)
  | .constString => return .constString (← Reader.u32)
  | .constLong => return .constLong (← Reader.i64)
  | .constClass => return .constClass (← Reader.u32)
  | .loadLocal => return .loadLocal (← Reader.u16)
  | .storeLocal => return .storeLocal (← Reader.u16)
  | .jump c => return .jump c (← Reader.i32)
  | .invoke k => return .invoke k (← Reader.u32)
  | .new => return .new (← Reader.u32)
  | .field a => return .field a (← Reader.u32)
  | .instanceOf => return .instanceOf (← Reader.u32)
  | .unbox => return .unbox (← Reader.u8)

theorem Reader.take_zero : Reader.take 0 = pure [] := by
  funext ⟨position, ahead⟩
  exact Reader.run_take 0 position ahead

/-- **Sizes and types.** What is read of an operand by its type is as many bytes as the opcode
takes. -/
theorem Opcode.readOperand_eq (op : Opcode) :
    op.readOperand = do return op.withOperand (← Reader.take op.operandSize) := by
  cases op with
  | simple op =>
    rw [operandSize, Reader.take_zero, pure_bind]
    rfl
  | _ =>
    simp only [readOperand, withOperand, operandSize, Reader.u8, Reader.u16, Reader.u32, Reader.i32,
      Reader.u64, Reader.i64, Reader.number, bind_assoc, pure_bind]

namespace Code

/-- The places where instructions start, from one of them on, by the sizes of operands alone. -/
def boundaries (bytes : Bytes) (p : Nat) : Except DecodeError (List Nat) :=
  if h : p < bytes.length then
    match Opcode.ofByte? bytes[p] with
    | none => .error (.invalidOpcode bytes[p] p)
    | some op => do
      let rest ← boundaries bytes (p + 1 + op.operandSize)
      return p :: rest
  else if p = bytes.length then .ok []
  else .error (.unexpectedEnd bytes.length)
termination_by bytes.length - p

/-- Reads an instruction. -/
def readInstruction (starts : List Nat) : Reader Instruction := do
  let start ← Reader.position
  let b ← Reader.u8
  match Opcode.ofByte? b with
  | none => throw (.invalidOpcode b start)
  | some op =>
    let i ← op.readOperand
    match resolve starts start i with
    | .error e => throw e
    | .ok j => return j

/-- An instruction is at least the byte of its opcode. -/
theorem remaining_readInstruction {starts : List Nat} {c c' : Cursor} {i : Instruction}
    (h : (readInstruction starts).run c = (.ok i, c')) : c'.remaining < c.remaining := by
  obtain ⟨start, c₁, hposition, h⟩ := Reader.run_bind_eq_ok h
  cases hposition
  obtain ⟨b, c₁, hbyte, h⟩ := Reader.run_bind_eq_ok h
  obtain ⟨_, hahead, rfl, -⟩ := Reader.takes_u8 _ _ _ _ hbyte
  split at h
  · cases h
  · rename_i op hop
    obtain ⟨j, c₂, hoperand, h⟩ := Reader.run_bind_eq_ok h
    rw [Opcode.readOperand_eq] at hoperand
    obtain ⟨operand, c₂, htake, hoperand⟩ := Reader.run_bind_eq_ok hoperand
    cases hoperand
    obtain ⟨_, hrest, -⟩ := Reader.takes_take _ _ _ _ _ htake
    split at h
    · cases h
    · cases h
      rw [Cursor.remaining, Cursor.remaining, hahead, hrest, Wire.u8]
      simp only [List.length_append, LittleEndian.length_encode]
      omega

/-- Reads instructions up to the end of the bytes. -/
def readInstructions (starts : List Nat) (c : Cursor) : Except DecodeError (List Instruction) :=
  if c.hasMore then
    match _h : (readInstruction starts).run c with
    | (.error e, _) => .error e
    | (.ok i, c') => do
      let rest ← readInstructions starts c'
      return i :: rest
  else .ok []
termination_by c.remaining
decreasing_by exact remaining_readInstruction ‹_›

theorem readInstructions_of_run {starts : List Nat} {c c' : Cursor}
    {outcome : Except DecodeError Instruction} (hmore : c.hasMore = true)
    (h : (readInstruction starts).run c = (outcome, c')) :
    readInstructions starts c =
      outcome >>= fun i => readInstructions starts c' >>= fun rest => pure (i :: rest) := by
  rw [readInstructions, if_pos hmore]
  split
  · rename_i heq
    cases h.symm.trans heq
    rfl
  · rename_i heq
    cases h.symm.trans heq
    rfl

/-- **The first pass.** Sizes alone find what splitting finds, and fail where it fails. -/
theorem boundaries_eq_split {start : Nat} (hle : start ≤ bytes.length) :
    boundaries bytes start =
      (split bytes.length start (bytes.drop start)).map (List.map Prod.fst) := by
  fun_induction boundaries bytes start with
  | case1 start hlt hop =>
    rw [List.drop_eq_getElem_cons hlt, split, hop]
    rfl
  | case2 start hlt op hop ih =>
    rw [List.drop_eq_getElem_cons hlt, split, hop]
    have hlen : ((bytes.drop (start + 1)).take op.operandSize).length = op.operandSize ↔
        start + 1 + op.operandSize ≤ bytes.length := by
      rw [List.length_take, List.length_drop]
      omega
    dsimp only
    by_cases hnext : start + 1 + op.operandSize ≤ bytes.length
    · rw [if_pos (hlen.2 hnext), List.drop_drop, ih hnext]
      cases split bytes.length _ _ <;> rfl
    · rw [if_neg (mt hlen.1 hnext), boundaries, dif_neg (by omega), if_neg (by omega)]
      rfl
  | case3 =>
    rw [List.drop_length, split]
    rfl
  | case4 start hlt hne => omega

theorem run_readInstruction {starts : List Nat} {start : Nat} {b : UInt8} {ahead : Bytes}
    {op : Opcode} (hop : Opcode.ofByte? b = some op)
    (hlen : (ahead.take op.operandSize).length = op.operandSize) :
    (readInstruction starts).run ⟨start, b :: ahead⟩ =
      (resolve starts start (op.withOperand (ahead.take op.operandSize)),
        ⟨start + 1 + op.operandSize, ahead.drop op.operandSize⟩) := by
  have hposition : Reader.position.run ⟨start, b :: ahead⟩ = (.ok start, ⟨start, b :: ahead⟩) := rfl
  have hbyte : Reader.u8.run ⟨start, b :: ahead⟩ = (.ok b, ⟨start + 1, ahead⟩) := by
    have hread := Reader.reads_u8 b start ahead
    rwa [Wire.u8_eq] at hread
  have hoperand : op.readOperand.run ⟨start + 1, ahead⟩ =
      (.ok (op.withOperand (ahead.take op.operandSize)),
        ⟨start + 1 + op.operandSize, ahead.drop op.operandSize⟩) := by
    have htake := Reader.run_take op.operandSize (start + 1) ahead
    rw [if_pos hlen] at htake
    rw [Opcode.readOperand_eq, Reader.run_bind_of_ok htake]
    rfl
  rw [readInstruction, Reader.run_bind_of_ok hposition, Reader.run_bind_of_ok hbyte, hop]
  dsimp only
  rw [Reader.run_bind_of_ok hoperand]
  cases resolve starts start (op.withOperand (ahead.take op.operandSize)) <;> rfl

/-- **The second pass.** Behind a first pass that went through, what is read is what was split. -/
theorem readInstructions_eq_mapM {starts : List Nat} {total start : Nat} {ahead : Bytes}
    {located : List (Nat × InstructionOf Int32)} (h : split total start ahead = .ok located) :
    readInstructions starts ⟨start, ahead⟩ =
      located.mapM fun (start, i) => resolve starts start i := by
  fun_induction split total start ahead generalizing located with
  | case1 start =>
    cases h
    rw [readInstructions]
    rfl
  | case2 | case3 | case5 => cases h
  | case4 start b rest op hop operand hlen located' hrest =>
    rename_i ih
    cases h
    rw [readInstructions_of_run rfl (run_readInstruction hop hlen), ih hrest, List.mapM_cons]

/-- **Two passes.** Reading does what the two passes do, one after the other. -/
theorem decode_eq_passes (bytes : Bytes) :
    decode bytes = boundaries bytes 0 >>= fun starts =>
      readInstructions starts (Cursor.start bytes) := by
  rw [decode, boundaries_eq_split (Nat.zero_le _), List.drop_zero]
  cases h : split bytes.length 0 bytes with
  | error e => rfl
  | ok located => exact (readInstructions_eq_mapM h).symm

/-- Behind a first pass that went through, the second stops at the first fault and nowhere else. -/
theorem readInstructions_eq_error_iff {starts : List Nat} {e : DecodeError}
    (h : boundaries bytes 0 = .ok starts) :
    readInstructions starts (Cursor.start bytes) = .error e ↔
      ∃ p, Fault bytes p e ∧ ∀ q < p, ∀ e', ¬Fault bytes q e' := by
  have hend : Boundary bytes bytes.length := by
    rw [boundaries_eq_split (Nat.zero_le _), List.drop_zero] at h
    obtain ⟨located, hsplit, -⟩ := Results.map_eq_ok h
    exact (splits_of_split .start rfl (Nat.zero_le _) hsplit).complete
  have hpasses : decode bytes = readInstructions starts (Cursor.start bytes) := by
    rw [decode_eq_passes, h]
    rfl
  rw [← hpasses, decode_eq_error_iff]
  constructor
  · intro he
    cases he with
    | opcode hp hb hop =>
      have hlt := (List.getElem?_eq_some_iff.1 hb).1
      exact absurd (hp.le_of_stop hb hop hend) (Nat.not_le_of_lt hlt)
    | cut hp hlt => exact absurd (hend.le_length hp) (Nat.not_le_of_lt hlt)
    | @fault p _ _ he hfirst => exact ⟨p, he, hfirst⟩
  · rintro ⟨p, he, hfirst⟩
    exact .fault hend he hfirst

/-- **Reading goes by the walk.** A body is refused for what there is to report of it, which is one
thing at most: the byte at which the walk stops, else that its last operand is cut off, else the
first fault. If there is nothing to report it is read. The two passes do the same; the first alone
judges opcodes and lengths, and the second alone faults. -/
theorem decode_goes_by_boundaries (bytes : Bytes) :
    (∀ e, decode bytes = .error e ↔ Reports bytes e) ∧
    ((∃ code, decode bytes = .ok code) ↔
      Boundary bytes bytes.length ∧ ∀ p e, ¬Fault bytes p e) ∧
    (decode bytes = boundaries bytes 0 >>= fun starts =>
      readInstructions starts (Cursor.start bytes)) ∧
    ∀ starts, boundaries bytes 0 = .ok starts →
      (∀ q, q ∈ starts ↔ Starts bytes q) ∧
      ∀ e, readInstructions starts (Cursor.start bytes) = .error e ↔
        ∃ p, Fault bytes p e ∧ ∀ q < p, ∀ e', ¬Fault bytes q e' := by
  refine ⟨fun e => decode_eq_error_iff, exists_decode_eq_ok_iff, decode_eq_passes bytes, ?_⟩
  intro starts h
  refine ⟨?_, fun e => readInstructions_eq_error_iff h⟩
  rw [boundaries_eq_split (Nat.zero_le _), List.drop_zero] at h
  obtain ⟨located, hsplit, rfl⟩ := Results.map_eq_ok h
  exact fun q => (splits_of_split .start rfl (Nat.zero_le _) hsplit).mem_starts

/-- A jump into its own operand is a fault, and the byte behind it is judged before. -/
theorem jump_into_operand_reported :
    decode [0x90, 0xFE, 0xFF, 0xFF, 0xFF] = .error (.invalidJumpTarget 0 3) ∧
    decode [0x90, 0xFE, 0xFF, 0xFF, 0xFF, 0xFF] = .error (.invalidOpcode 0xFF 5) := by
  have hfirst : ∀ rest, Boundary (0x90 :: 0xFE :: 0xFF :: 0xFF :: 0xFF :: rest) 5 := fun rest =>
    .next .start rfl (Opcode.ofByte?_byte (.jump .always))
  constructor
  · have hjump : HasAt [0x90, 0xFE, 0xFF, 0xFF, 0xFF] 0 (.jump .always (-2)) :=
      ⟨.start, by decide⟩
    refine ((decode_goes_by_boundaries _).1 _).2 (.fault (hfirst []) (.jump hjump ?_) nofun)
    intro q hq heq
    obtain rfl : q = 3 := by
      have hdistance : ((0 + 5 : Nat) : Int) + (-2 : Int32).toInt = 3 := by decide
      omega
    have hle := Boundary.start.next_le hq.1 (by decide) rfl (Opcode.ofByte?_byte (.jump .always))
    exact absurd hle (by decide)
  · exact ((decode_goes_by_boundaries _).1 _).2 (.opcode (hfirst [0xFF]) rfl (by decide))

end Code

end Interpose
