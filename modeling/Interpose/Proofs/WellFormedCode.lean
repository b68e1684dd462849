import Interpose.Proofs.Codec
/-!
# Which bytes are programs

A program is *well formed* if its labels are places of it and its tags are those of primitive types.
Bodies that are short enough for a displacement to reach from one end to the other are the written
forms of well-formed programs, each of exactly one: reading accepts nothing else and finds that one.

A label behind the last instruction is written all the same, as a jump to the end of the bytes. That
is where no instruction starts, so what is written of such a program is refused.

## Main definitions

* `Code.WellFormed`

## Main results

* `Code.decode_eq_ok_iff`: bodies are read as the programs that they are the written form of
* `Code.exists_error_of_label`: labels that lead behind the end are refused
-/

namespace Interpose

namespace Code

/-- A program whose labels are places of it and whose tags are those of primitive types. -/
structure WellFormed (code : List Instruction) : Prop where
  labels : ∀ c label, .jump c label ∈ code → label < code.length
  tags : ∀ tag, .unbox tag ∈ code → (TypeDesc.ofTag? tag).isSome

/-! ### Lengths -/

end Code

theorem InstructionOf.length_encode (i : InstructionOf Int32) : i.encode.length = i.size := by
  rw [encode, List.length_cons, length_operandBytes, Nat.add_comm, size]

namespace Code

theorem length_flatMap_encode (code : List (InstructionOf Int32)) :
    (code.flatMap InstructionOf.encode).length = byteSize code := by
  induction code with
  | nil => rfl
  | cons i rest ih =>
    rw [List.flatMap_cons, List.length_append, i.length_encode, ih]
    rfl

theorem byteSize_toDistances (place : Nat → Nat) (start : Nat) (code : List Instruction) :
    byteSize (toDistances place start code) = byteSize code := by
  induction code generalizing start with
  | nil => rfl
  | cons i rest ih =>
    show (i.mapTarget _).size + byteSize _ = i.size + byteSize rest
    rw [InstructionOf.size_mapTarget, ih]

theorem length_encode (code : List Instruction) : (encode code).length = byteSize code := by
  rw [encode, length_flatMap_encode, byteSize_toDistances]

/-- An instruction ends before the program does. -/
theorem add_size_le {T : Type} {start : Nat} {code : List (InstructionOf T)} {p offset : Nat}
    {i : InstructionOf T} (hp : (offsets start code)[p]? = some offset) (hi : code[p]? = some i) :
    offset + i.size ≤ start + byteSize code := by
  induction code generalizing start p with
  | nil => exact nomatch hi
  | cons j rest ih =>
    show offset + i.size ≤ start + (j.size + byteSize rest)
    cases p with
    | zero =>
      cases hp
      cases hi
      omega
    | succ p =>
      have hrest : offset + i.size ≤ start + j.size + byteSize rest := ih hp hi
      omega

/-- No instruction starts at the end of a program. -/
theorem lt_of_mem_offsets {T : Type} {code : List (InstructionOf T)} {offset : Nat}
    (h : offset ∈ offsets 0 code) : offset < byteSize code := by
  obtain ⟨p, hp⟩ := List.getElem?_of_mem h
  have hlt : p < code.length := length_offsets 0 code ▸ (List.getElem?_eq_some_iff.1 hp).1
  have hle := add_size_le hp (List.getElem?_eq_getElem hlt)
  have hpos : 0 < code[p].size := Nat.lt_of_lt_of_le Nat.one_pos (Nat.le_add_right 1 _)
  omega

/-! ### Well-formed programs -/

/-- A program that is short enough can be written if it is well formed. -/
theorem WellFormed.writable {code : List Instruction} (h : WellFormed code)
    (hsize : byteSize code < 0x80000000) : Writable code := by
  intro p start i hp hi
  have hnext := add_size_le hp hi
  cases i with
  | jump c label =>
    have hlabel : label < (offsets 0 code).length := by
      rw [length_offsets]
      exact h.labels c label (List.mem_of_getElem? hi)
    have hget := List.getElem?_eq_getElem hlabel
    have hlt := lt_of_mem_offsets (List.mem_of_getElem? hget)
    have hsize' : (InstructionOf.jump c label).size = 5 := rfl
    refine ⟨_, hget, ?_, ?_⟩ <;> omega
  | unbox tag => exact h.tags tag (List.mem_of_getElem? hi)
  | _ => trivial

/-- Only well-formed programs are read. -/
theorem wellFormed_of_decode {bytes : Bytes} {code : List Instruction}
    (h : decode bytes = .ok code) : WellFormed code := by
  have hwritable := writable_of_decode h
  have hexpressible : ∀ i ∈ code, ∃ start, Expressible (offsets 0 code) start i := by
    intro i hi
    obtain ⟨p, hp⟩ := List.getElem?_of_mem hi
    have hlt : p < (offsets 0 code).length := by
      rw [length_offsets]
      exact (List.getElem?_eq_some_iff.1 hp).1
    exact ⟨_, hwritable p _ i (List.getElem?_eq_getElem hlt) hp⟩
  constructor
  · intro c label hi
    obtain ⟨start, offset, hoffset, -⟩ := hexpressible _ hi
    rw [← length_offsets 0 code]
    exact (List.getElem?_eq_some_iff.1 hoffset).1
  · intro tag hi
    obtain ⟨_, htag⟩ := hexpressible _ hi
    exact htag

/-- **Bodies.** A body is read as a program exactly if the program is well formed and the body is its
written form. -/
theorem decode_eq_ok_iff {bytes : Bytes} (hsize : bytes.length < 0x80000000)
    {code : List Instruction} : decode bytes = .ok code ↔ WellFormed code ∧ encode code = bytes := by
  constructor
  · exact fun h => ⟨wellFormed_of_decode h, encode_of_decode h⟩
  · rintro ⟨hcode, rfl⟩
    exact decode_encode (hcode.writable (length_encode code ▸ hsize))

/-! ### Labels behind the end -/

/-- What is written of an instruction. -/
theorem getElem?_toDistances {place : Nat → Nat} {start offset p : Nat} {code : List Instruction}
    {i : Instruction} (hp : (offsets start code)[p]? = some offset) (hi : code[p]? = some i) :
    (toDistances place start code)[p]? = some
      (i.mapTarget fun label => Int32.ofNat (place label) - Int32.ofNat (offset + i.size)) := by
  induction code generalizing start p with
  | nil => exact nomatch hi
  | cons j rest ih =>
    cases p with
    | zero =>
      cases hp
      cases hi
      rfl
    | succ p => exact ih hp hi

/-- A jump to the end of the bytes leads to no instruction. -/
theorem resolve_jump_end {code : List Instruction} {start : Nat} (hnext : start + 5 ≤ byteSize code)
    (hsize : byteSize code < 0x80000000) (c : Condition) :
    ∃ e, resolve (offsets 0 code) start
      (.jump c (Int32.ofNat (byteSize code) - Int32.ofNat (start + 5))) = .error e := by
  have hreach : InReach (start + 5) (byteSize code) := by constructor <;> omega
  have htarget : ((start + 5 : Nat) : Int) +
      (Int32.ofNat (byteSize code) - Int32.ofNat (start + 5)).toInt = (byteSize code : Int) := by
    rw [toInt_distance hreach]
    omega
  have hnone : labelAt? (offsets 0 code) (byteSize code) = none := by
    unfold labelAt?
    rw [if_pos (Int.natCast_nonneg _), Int.toNat_natCast, List.idxOf?_eq_none_iff]
    exact fun hmem => Nat.lt_irrefl _ (lt_of_mem_offsets hmem)
  unfold resolve
  dsimp only
  rw [htarget, hnone]
  exact ⟨_, rfl⟩

/-- **Labels behind the end.** What is written of a program that jumps behind its end is refused. -/
theorem exists_error_of_label {code : List Instruction} (hsize : byteSize code < 0x80000000)
    {c : Condition} {label : Nat} (hjump : .jump c label ∈ code) (hlabel : code.length ≤ label) :
    ∃ e, decode (encode code) = .error e := by
  cases hdecode : decode (encode code) with
  | error e => exact ⟨e, rfl⟩
  | ok code' =>
    exfalso
    obtain ⟨place, hplace⟩ : ∃ place : Nat → Nat,
        place = fun label => (offsets 0 code)[label]?.getD (byteSize code) := ⟨_, rfl⟩
    have hencode : encode code = (toDistances place 0 code).flatMap InstructionOf.encode := by
      rw [hplace, encode]
    have hend : place label = byteSize code := by
      subst hplace
      dsimp only
      rw [List.getElem?_eq_none (by rw [length_offsets]; exact hlabel), Option.getD_none]
    unfold decode at hdecode
    rw [hencode, split_flatMap_encode, offsets_toDistances] at hdecode
    obtain ⟨p, hp⟩ := List.getElem?_of_mem hjump
    have hlt : p < (offsets 0 code).length := by
      rw [length_offsets]
      exact (List.getElem?_eq_some_iff.1 hp).1
    have hstart := List.getElem?_eq_getElem hlt
    have hlocated : ((offsets 0 code).zip (toDistances place 0 code))[p]? = some (_, _) :=
      List.getElem?_zip_eq_some.2 ⟨hstart, getElem?_toDistances hstart hp⟩
    have hstarts : ((offsets 0 code).zip (toDistances place 0 code)).map Prod.fst =
        offsets 0 code :=
      List.map_fst_zip (Nat.le_of_eq (by rw [length_offsets, length_toDistances]))
    obtain ⟨j, -, hresolve⟩ := (Results.mapM_eq_ok hdecode).2 p _ hlocated
    dsimp only [InstructionOf.mapTarget] at hresolve
    rw [hstarts, hend] at hresolve
    have hnext := add_size_le hstart hp
    rw [Nat.zero_add] at hnext
    obtain ⟨e, he⟩ := resolve_jump_end hnext hsize c
    cases hresolve.symm.trans he

end Code

/-- **Bodies and programs.** For bodies that a displacement can span: a body is read as a program
exactly if the program is well formed and is written as that body, so that reading and writing undo
each other; and a body that is written of a program with a label behind its end is refused. -/
theorem decode_body_eq_ok_iff {bytes : Bytes} (hsize : bytes.length < 0x80000000)
    (code : List Instruction) :
    (Code.decode bytes = .ok code ↔ Code.WellFormed code ∧ Code.encode code = bytes) ∧
    ∀ c label, .jump c label ∈ code → code.length ≤ label → Code.encode code = bytes →
      ∃ e, Code.decode bytes = .error e := by
  refine ⟨Code.decode_eq_ok_iff hsize, ?_⟩
  rintro c label hjump hlabel rfl
  exact Code.exists_error_of_label (Code.length_encode code ▸ hsize) hjump hlabel

/-- A loop back to the start is read from the bytes that are written of it, and a jump behind the end,
which is written as well, is not. -/
theorem loop_decodes :
    Code.decode [0x10, 0, 0, 0x92, 0xF8, 0xFF, 0xFF, 0xFF, 0xF3, 2, 0xA3] =
      .ok [.loadLocal 0, .jump .ifTrue 0, .unbox 2, .simple .ret] ∧
    ∃ e, Code.decode [0x90, 0, 0, 0, 0] = .error e := by
  constructor
  · refine (decode_body_eq_ok_iff (by decide) _).1.2 ⟨⟨fun c label h => ?_, fun tag h => ?_⟩, by decide⟩
    · obtain ⟨-, rfl⟩ : c = .ifTrue ∧ label = 0 := by simpa using h
      decide
    · obtain rfl : tag = 2 := by simpa using h
      decide
  · exact (decode_body_eq_ok_iff (by decide) [.jump .always 1]).2 .always 1 List.mem_cons_self
      (Nat.le_refl 1) (by decide)

end Interpose
