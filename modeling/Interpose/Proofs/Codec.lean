import Interpose.Instruction.Codec
import Interpose.Proofs.Results
/-!
# Method bodies there and back

A program that is written and read again is the same program, as long as its labels lead somewhere,
its tags are those of primitive types, and no jump is farther than a displacement can say.

How far a jump goes is all that counts here. The whole may be longer than that, since displacements
are differences and wrap around.

## Main definitions

* `Code.InReach`, `Code.Writable`

## Main results

* `Code.split_flatMap_encode`: reading finds the instructions that were written, and where
* `Code.decode_encode`: a program that is written and read again
* `Code.encode_of_decode`: bytes that are read and written again
* `Code.writable_of_decode`, `Code.Writable.of_append`: what has been read can be written, and so can
  the end of it on its own
-/

namespace Interpose

/-! ### One instruction -/

namespace InstructionOf

theorem length_operandBytes (i : InstructionOf Int32) :
    i.operandBytes.length = i.opcode.operandSize := by
  cases i <;> rfl

/-- The operand of an opcode, read from the bytes that were written for it. -/
theorem withOperand_operandBytes (i : InstructionOf Int32) :
    i.opcode.withOperand i.operandBytes = i := by
  have h8 : ∀ v : UInt8, UInt8.ofNat (LittleEndian.decode (Wire.u8 v)) = v := fun v => by
    have hlt : v.toNat < Nat.pow 256 1 := v.toNat_lt
    rw [Wire.u8, LittleEndian.decode_encode, Nat.mod_eq_of_lt hlt, UInt8.ofNat_toNat]
  have h16 : ∀ v : UInt16, UInt16.ofNat (LittleEndian.decode (Wire.u16 v)) = v := fun v => by
    have hlt : v.toNat < Nat.pow 256 2 := v.toNat_lt
    rw [Wire.u16, LittleEndian.decode_encode, Nat.mod_eq_of_lt hlt, UInt16.ofNat_toNat]
  have h32 : ∀ v : UInt32, UInt32.ofNat (LittleEndian.decode (Wire.u32 v)) = v := fun v => by
    have hlt : v.toNat < Nat.pow 256 4 := v.toNat_lt
    rw [Wire.u32, LittleEndian.decode_encode, Nat.mod_eq_of_lt hlt, UInt32.ofNat_toNat]
  have h64 : ∀ v : UInt64, UInt64.ofNat (LittleEndian.decode (Wire.u64 v)) = v := fun v => by
    have hlt : v.toNat < Nat.pow 256 8 := v.toNat_lt
    rw [Wire.u64, LittleEndian.decode_encode, Nat.mod_eq_of_lt hlt, UInt64.ofNat_toNat]
  cases i with
  | simple op => rfl
  | constInt v => exact congrArg (constInt ∘ UInt32.toInt32) (h32 v.toUInt32)
  | constDouble bits => exact congrArg constDouble (h64 bits)
  | constString i => exact congrArg constString (h32 i)
  | constLong v => exact congrArg (constLong ∘ UInt64.toInt64) (h64 v.toUInt64)
  | constClass i => exact congrArg constClass (h32 i)
  | loadLocal n => exact congrArg loadLocal (h16 n)
  | storeLocal n => exact congrArg storeLocal (h16 n)
  | jump c d => exact congrArg (jump c ∘ UInt32.toInt32) (h32 d.toUInt32)
  | invoke k i => exact congrArg (invoke k) (h32 i)
  | new i => exact congrArg new (h32 i)
  | field a i => exact congrArg (field a) (h32 i)
  | instanceOf i => exact congrArg instanceOf (h32 i)
  | unbox tag => exact congrArg unbox (h8 tag)

end InstructionOf

namespace Code

/-! ### Splitting -/

/-- Reading finds the instructions that were written, each where it was put. -/
theorem split_flatMap_encode (total start : Nat) (code : List (InstructionOf Int32)) :
    split total start (code.flatMap InstructionOf.encode) = .ok ((offsets start code).zip code) := by
  induction code generalizing start with
  | nil => rw [List.flatMap_nil, split]; rfl
  | cons i rest ih =>
    have hlen : i.operandBytes.length = i.opcode.operandSize := i.length_operandBytes
    have htake : (i.operandBytes ++ rest.flatMap InstructionOf.encode).take i.opcode.operandSize =
        i.operandBytes := by rw [← hlen, List.take_left]
    have hdrop : (i.operandBytes ++ rest.flatMap InstructionOf.encode).drop i.opcode.operandSize =
        rest.flatMap InstructionOf.encode := by rw [← hlen, List.drop_left]
    rw [List.flatMap_cons, InstructionOf.encode, List.cons_append, split, Opcode.ofByte?_byte]
    simp only [htake, hdrop, hlen, if_true, i.withOperand_operandBytes]
    rw [Nat.add_assoc, ih]
    rfl

/-! ### Places -/

section Places

variable {T U : Type}

theorem length_offsets (start : Nat) (code : List (InstructionOf T)) :
    (offsets start code).length = code.length := by
  induction code generalizing start with
  | nil => rfl
  | cons i rest ih => exact congrArg (· + 1) (ih _)

theorem le_of_mem_offsets {start : Nat} {code : List (InstructionOf T)} {n : Nat}
    (h : n ∈ offsets start code) : start ≤ n := by
  induction code generalizing start with
  | nil => exact nomatch h
  | cons i rest ih =>
    rcases List.mem_cons.1 h with rfl | h
    · exact Nat.le_refl _
    · exact Nat.le_trans (Nat.le_add_right _ _) (ih h)

/-- No two instructions start at one place. -/
theorem nodup_offsets (start : Nat) (code : List (InstructionOf T)) :
    (offsets start code).Nodup := by
  induction code generalizing start with
  | nil => exact List.nodup_nil
  | cons i rest ih =>
    refine List.nodup_cons.2 ⟨fun h => ?_, ih _⟩
    have hle : start + i.size ≤ start := le_of_mem_offsets h
    have hpos : 0 < i.size := Nat.lt_of_lt_of_le Nat.one_pos (Nat.le_add_right 1 _)
    omega

/-- Where a label leads can be read off the offsets. -/
theorem labelAt?_offsets {start : Nat} {code : List (InstructionOf T)} {label offset : Nat}
    (h : (offsets start code)[label]? = some offset) :
    labelAt? (offsets start code) offset = some label := by
  obtain ⟨hlt, hget⟩ := List.getElem?_eq_some_iff.1 h
  unfold labelAt?
  rw [if_pos (Int.natCast_nonneg _), Int.toNat_natCast, List.idxOf?_eq_some_iff]
  refine ⟨hlt, hget, fun j hj heq => ?_⟩
  have hj' : j < (offsets start code).length := Nat.lt_trans hj hlt
  have hsame := (List.getElem_inj (nodup_offsets start code)).1 (heq.trans hget.symm)
  omega

/-- Instructions of the same sizes stand at the same places. -/
theorem offsets_toDistances (place : Nat → Nat) (origin start : Nat) (code : List Instruction) :
    offsets start (toDistances place origin code) = offsets start code := by
  induction code generalizing origin start with
  | nil => rfl
  | cons i rest ih =>
    show start :: offsets (start + (i.mapTarget _).size) _ = start :: offsets (start + i.size) rest
    rw [InstructionOf.size_mapTarget, ih]

end Places

/-! ### Jumps -/

/-- A jump from one place to another that a displacement can express. -/
def InReach (next offset : Nat) : Prop :=
  -0x80000000 ≤ (offset : Int) - next ∧ (offset : Int) - next < 0x80000000

theorem toInt_distance {next offset : Nat} (h : InReach next offset) :
    (Int32.ofNat offset - Int32.ofNat next).toInt = (offset : Int) - next := by
  obtain ⟨hle, hlt⟩ := h
  rw [Int32.toInt_sub, Int32.toInt_ofNat', Int32.toInt_ofNat', Int.sub_bmod_bmod,
    Int.bmod_sub_bmod]
  simp only [Int32.size]
  exact Int.bmod_eq_of_le (by omega) (by omega)

/-- What can be written of an instruction that stands at a place: a jump leads to an instruction
within reach, and a tag is that of a primitive type. -/
def Expressible (starts : List Nat) (start : Nat) : Instruction → Prop
  | .jump _ label => ∃ offset, starts[label]? = some offset ∧ InReach (start + 5) offset
  | .unbox tag => (TypeDesc.ofTag? tag).isSome
  | _ => True

/-- A program that can be written. -/
def Writable (code : List Instruction) : Prop :=
  ∀ (p start : Nat) (i : Instruction), (offsets 0 code)[p]? = some start → code[p]? = some i →
    Expressible (offsets 0 code) start i

/-- Reading an instruction takes back what writing has made of its label. -/
theorem resolve_mapTarget {T : Type} {code : List (InstructionOf T)} {place : Nat → Nat}
    {start : Nat} {i : Instruction} (hi : Expressible (offsets 0 code) start i)
    (hplace : ∀ label offset, (offsets 0 code)[label]? = some offset → place label = offset) :
    resolve (offsets 0 code) start
      (i.mapTarget fun label => Int32.ofNat (place label) - Int32.ofNat (start + i.size)) =
        .ok i := by
  cases i with
  | jump c label =>
    obtain ⟨offset, hoffset, hreach⟩ := hi
    have htarget : ((start + 5 : Nat) : Int) +
        (Int32.ofNat (place label) - Int32.ofNat (start + 5)).toInt = (offset : Int) := by
      rw [hplace label offset hoffset, toInt_distance hreach]
      omega
    show resolve (offsets 0 code) start
      (.jump c (Int32.ofNat (place label) - Int32.ofNat (start + 5))) = _
    unfold resolve
    dsimp only
    rw [htarget, labelAt?_offsets hoffset]
  | unbox tag =>
    obtain ⟨t, ht⟩ := Option.isSome_iff_exists.1 hi
    show resolve (offsets 0 code) start (.unbox tag) = _
    unfold resolve
    dsimp only
    rw [ht]
  | _ => rfl

/-- Reading the rest of a program. -/
theorem mapM_resolve {code rest : List Instruction} {place : Nat → Nat} {start : Nat}
    (hrest : ∀ (p start' : Nat) (i : Instruction), (offsets start rest)[p]? = some start' →
      rest[p]? = some i → Expressible (offsets 0 code) start' i)
    (hplace : ∀ label offset, (offsets 0 code)[label]? = some offset → place label = offset) :
    ((offsets start rest).zip (toDistances place start rest)).mapM
      (fun (s, i) => resolve (offsets 0 code) s i) = .ok rest := by
  induction rest generalizing start with
  | nil => rfl
  | cons i rest ih =>
    have hi := resolve_mapTarget (hrest 0 start i rfl rfl) hplace
    have htail : ((offsets (start + i.size) rest).zip (toDistances place (start + i.size) rest)).mapM
        (fun (s, i) => resolve (offsets 0 code) s i) = .ok rest :=
      ih fun p start' j hs hj => hrest (p + 1) start' j hs hj
    show ((start, i.mapTarget _) :: (offsets (start + i.size) rest).zip
      (toDistances place (start + i.size) rest)).mapM _ = _
    rw [List.mapM_cons]
    simp only [hi, htail]
    rfl

theorem length_toDistances (place : Nat → Nat) (start : Nat) (code : List Instruction) :
    (toDistances place start code).length = code.length := by
  induction code generalizing start with
  | nil => rfl
  | cons i rest ih => exact congrArg (· + 1) (ih _)

/-- An instruction takes at least a byte. -/
theorem encode_ne_nil {code : List Instruction} (h : code ≠ []) : encode code ≠ [] := by
  obtain ⟨i, rest, rfl⟩ := List.exists_cons_of_ne_nil h
  exact List.cons_ne_nil _ _

/-- **There and back.** -/
theorem decode_encode {code : List Instruction} (h : Writable code) :
    decode (encode code) = .ok code := by
  obtain ⟨place, hplace⟩ : ∃ place : Nat → Nat,
      place = fun label => (offsets 0 code)[label]?.getD (byteSize code) := ⟨_, rfl⟩
  have hencode : encode code = (toDistances place 0 code).flatMap InstructionOf.encode := by
    rw [hplace, encode]
  have hsplit : split (encode code).length 0 (encode code) =
      .ok ((offsets 0 code).zip (toDistances place 0 code)) := by
    rw [hencode, split_flatMap_encode, offsets_toDistances]
  have hstarts : ((offsets 0 code).zip (toDistances place 0 code)).map Prod.fst =
      offsets 0 code := by
    refine List.map_fst_zip (Nat.le_of_eq ?_)
    rw [length_offsets, length_toDistances]
  have hmapM : ((offsets 0 code).zip (toDistances place 0 code)).mapM
      (fun (s, i) => resolve (offsets 0 code) s i) = .ok code := by
    refine mapM_resolve h fun label offset hl => ?_
    subst hplace
    show (offsets 0 code)[label]?.getD (byteSize code) = offset
    rw [hl, Option.getD_some]
  unfold decode
  rw [hsplit]
  show ((offsets 0 code).zip (toDistances place 0 code)).mapM
    (fun (s, i) => resolve (((offsets 0 code).zip (toDistances place 0 code)).map Prod.fst) s i) = _
  rw [hstarts, hmapM]

/-- There is nothing to read in an empty body. -/
theorem decode_nil : decode [] = .ok [] := by
  have hnil : Writable [] := fun _ _ _ _ hi => by cases hi
  exact decode_encode hnil

/-! ### Back and there -/

end Code

theorem Opcode.opcode_withOperand (op : Opcode) (operand : Bytes) :
    (op.withOperand operand).opcode = op := by
  cases op <;> rfl

/-- An instruction is written as the bytes that it was read from. -/
theorem InstructionOf.encode_withOperand {op : Opcode} {operand : Bytes}
    (h : operand.length = op.operandSize) :
    (op.withOperand operand).encode = op.byte :: operand := by
  have hnumber : ∀ width, operand.length = width →
      LittleEndian.decode operand < Nat.pow 256 width ∧
        LittleEndian.encode width (LittleEndian.decode operand) = operand := by
    rintro _ rfl
    exact ⟨LittleEndian.decode_lt operand, LittleEndian.encode_decode operand⟩
  have h8 : operand.length = 1 → Wire.u8 (UInt8.ofNat (LittleEndian.decode operand)) = operand := by
    intro hlen
    have hlt : LittleEndian.decode operand < UInt8.size := (hnumber 1 hlen).1
    rw [Wire.u8, UInt8.toNat_ofNat', Nat.mod_eq_of_lt hlt, (hnumber 1 hlen).2]
  have h16 : operand.length = 2 →
      Wire.u16 (UInt16.ofNat (LittleEndian.decode operand)) = operand := by
    intro hlen
    have hlt : LittleEndian.decode operand < UInt16.size := (hnumber 2 hlen).1
    rw [Wire.u16, UInt16.toNat_ofNat', Nat.mod_eq_of_lt hlt, (hnumber 2 hlen).2]
  have h32 : operand.length = 4 →
      Wire.u32 (UInt32.ofNat (LittleEndian.decode operand)) = operand := by
    intro hlen
    have hlt : LittleEndian.decode operand < UInt32.size := (hnumber 4 hlen).1
    rw [Wire.u32, UInt32.toNat_ofNat', Nat.mod_eq_of_lt hlt, (hnumber 4 hlen).2]
  have h64 : operand.length = 8 →
      Wire.u64 (UInt64.ofNat (LittleEndian.decode operand)) = operand := by
    intro hlen
    have hlt : LittleEndian.decode operand < UInt64.size := (hnumber 8 hlen).1
    rw [Wire.u64, UInt64.toNat_ofNat', Nat.mod_eq_of_lt hlt, (hnumber 8 hlen).2]
  rw [encode, Opcode.opcode_withOperand]
  refine congrArg (op.byte :: ·) ?_
  cases op with
  | simple op => exact (List.length_eq_zero_iff.1 h).symm
  | constInt => exact h32 h
  | constDouble => exact h64 h
  | constString => exact h32 h
  | constLong => exact h64 h
  | constClass => exact h32 h
  | loadLocal => exact h16 h
  | storeLocal => exact h16 h
  | jump c => exact h32 h
  | invoke k => exact h32 h
  | new => exact h32 h
  | field a => exact h32 h
  | instanceOf => exact h32 h
  | unbox => exact h8 h

namespace Code

/-- What has been split is written as the bytes that it was split from, and stands where it stood. -/
theorem of_split {total start : Nat} {bytes : Bytes} {located : List (Nat × InstructionOf Int32)}
    (h : split total start bytes = .ok located) :
    (located.map Prod.snd).flatMap InstructionOf.encode = bytes ∧
      located.map Prod.fst = offsets start (located.map Prod.snd) := by
  fun_induction split total start bytes generalizing located with
  | case1 start =>
    cases h
    exact ⟨rfl, rfl⟩
  | case2 | case3 | case5 => exact nomatch h
  | case4 start b rest op hop operand hlen located' hrest =>
    rename_i ih
    cases h
    obtain ⟨hbytes, hstarts⟩ := ih hrest
    have hsize : (op.withOperand operand).size = 1 + op.operandSize := by
      rw [InstructionOf.size, Opcode.opcode_withOperand]
    constructor
    · rw [List.map_cons, List.flatMap_cons, InstructionOf.encode_withOperand hlen, hbytes,
        Opcode.byte_of_ofByte? hop]
      exact congrArg (b :: ·) (List.take_append_drop op.operandSize rest)
    · show start :: located'.map Prod.fst = start :: offsets _ _
      rw [hsize, hstarts, Nat.add_assoc]

/-- A distance that can be read is the difference of the places between which it leads. -/
theorem distance_eq {next offset : Nat} {distance : Int32}
    (h : (next : Int) + distance.toInt = offset) :
    Int32.ofNat offset - Int32.ofNat next = distance := by
  have hle := distance.le_toInt
  have hlt := distance.toInt_lt
  have hreach : InReach next offset := ⟨by omega, by omega⟩
  refine Int32.toInt_inj.1 ?_
  rw [toInt_distance hreach]
  omega

/-- Writing an instruction takes back what reading has made of its distance. -/
theorem mapTarget_of_resolve {starts : List Nat} {place : Nat → Nat} {start : Nat}
    {i : InstructionOf Int32} {j : Instruction} (h : resolve starts start i = .ok j)
    (hplace : ∀ label offset, starts[label]? = some offset → place label = offset) :
    j.mapTarget (fun label => Int32.ofNat (place label) - Int32.ofNat (start + j.size)) = i := by
  cases i with
  | jump c distance =>
    unfold resolve at h
    dsimp only at h
    split at h
    case h_2 => cases h
    rename_i label hlabel
    cases h
    unfold labelAt? at hlabel
    split at hlabel
    case isFalse => cases hlabel
    rename_i hnonneg
    obtain ⟨hlt, hget, -⟩ := List.idxOf?_eq_some_iff.1 hlabel
    have hoffset := hplace label _ (List.getElem?_eq_some_iff.2 ⟨hlt, hget⟩)
    refine congrArg (InstructionOf.jump c) (distance_eq ?_)
    rw [hoffset, Int.toNat_of_nonneg hnonneg]
    rfl
  | unbox tag =>
    unfold resolve at h
    dsimp only at h
    split at h
    · cases h
      rfl
    · cases h
  | _ =>
    cases h
    rfl

/-- The same of the rest of a program. -/
theorem toDistances_of_mapM {starts : List Nat} {place : Nat → Nat} {start : Nat}
    {located : List (Nat × InstructionOf Int32)} {code : List Instruction}
    (h : located.mapM (fun (s, i) => resolve starts s i) = .ok code)
    (hstarts : located.map Prod.fst = offsets start (located.map Prod.snd))
    (hplace : ∀ label offset, starts[label]? = some offset → place label = offset) :
    toDistances place start code = located.map Prod.snd := by
  induction located generalizing start code with
  | nil =>
    cases h
    rfl
  | cons p located ih =>
    obtain ⟨s, i⟩ := p
    rw [List.mapM_cons] at h
    obtain ⟨j, hj, h⟩ := Results.bind_eq_ok h
    obtain ⟨rest, hrest, h⟩ := Results.bind_eq_ok h
    cases h
    obtain ⟨rfl, htail⟩ := List.cons.inj hstarts
    have hi := mapTarget_of_resolve hj hplace
    have hsize : j.size = i.size := by rw [← hi, InstructionOf.size_mapTarget]
    show j.mapTarget _ :: toDistances place (s + j.size) rest = i :: located.map Prod.snd
    rw [hi, hsize, ih hrest htail]

/-- What has been read stands where it stood in the bytes. -/
theorem starts_of_decode {bytes : Bytes} {located : List (Nat × InstructionOf Int32)}
    {code : List Instruction} (hsplit : split bytes.length 0 bytes = .ok located)
    (h : located.mapM (fun (s, i) => resolve (located.map Prod.fst) s i) = .ok code) :
    located.map Prod.fst = offsets 0 code := by
  obtain ⟨-, hstarts⟩ := of_split hsplit
  -- The distances that were read are those that are written, so the places are the same as well.
  have hdistances : toDistances (fun label => (located.map Prod.fst)[label]?.getD 0) 0 code =
      located.map Prod.snd :=
    toDistances_of_mapM h hstarts fun label offset hl => by rw [hl, Option.getD_some]
  rw [hstarts, ← hdistances, offsets_toDistances]

/-- **Back and there.** Bytes that are read are what is written of them, however many they are. -/
theorem encode_of_decode {bytes : Bytes} {code : List Instruction} (h : decode bytes = .ok code) :
    encode code = bytes := by
  unfold decode at h
  obtain ⟨located, hsplit, h⟩ := Results.bind_eq_ok h
  obtain ⟨hbytes, hstarts⟩ := of_split hsplit
  rw [encode, ← starts_of_decode hsplit h, toDistances_of_mapM h hstarts, hbytes]
  intro label offset hl
  rw [hl, Option.getD_some]

/-! ### Parts of a program -/

/-- What an instruction has been read from says it. -/
theorem expressible_of_resolve {starts : List Nat} {start : Nat} {i : InstructionOf Int32}
    {j : Instruction} (h : resolve starts start i = .ok j) : Expressible starts start j := by
  cases i with
  | jump c distance =>
    unfold resolve at h
    dsimp only at h
    split at h
    case h_2 => cases h
    rename_i label hlabel
    cases h
    unfold labelAt? at hlabel
    split at hlabel
    case isFalse => cases hlabel
    obtain ⟨hlt, hget, -⟩ := List.idxOf?_eq_some_iff.1 hlabel
    refine ⟨_, List.getElem?_eq_some_iff.2 ⟨hlt, hget⟩, ?_⟩
    have hle := distance.le_toInt
    have hlt' := distance.toInt_lt
    constructor <;> omega
  | unbox tag =>
    unfold resolve at h
    dsimp only at h
    split at h
    · rename_i htag
      cases h
      show (TypeDesc.ofTag? tag).isSome
      rw [htag]
      rfl
    · cases h
  | _ =>
    cases h
    trivial

/-- What has been read can be written. -/
theorem writable_of_decode {bytes : Bytes} {code : List Instruction} (h : decode bytes = .ok code) :
    Writable code := by
  unfold decode at h
  obtain ⟨located, hsplit, h⟩ := Results.bind_eq_ok h
  have hstarts := starts_of_decode hsplit h
  obtain ⟨hlength, hget⟩ := Results.mapM_eq_ok h
  intro p start i hp hi
  have hlt : p < located.length := hlength ▸ (List.getElem?_eq_some_iff.1 hi).1
  obtain ⟨j, hj, hresolve⟩ := hget p located[p] (List.getElem?_eq_getElem hlt)
  obtain rfl : j = i := Option.some.inj (hj.symm.trans hi)
  have hstart : located[p].1 = start := by
    rw [← hstarts, List.getElem?_map, List.getElem?_eq_getElem hlt] at hp
    exact Option.some.inj hp
  rw [← hstarts, ← hstart]
  exact expressible_of_resolve hresolve

section Parts

variable {T U : Type}

theorem offsets_append (start : Nat) (code rest : List (InstructionOf T)) :
    offsets start (code ++ rest) = offsets start code ++ offsets (start + byteSize code) rest := by
  induction code generalizing start with
  | nil => rfl
  | cons i code ih =>
    have hsize : byteSize (i :: code) = i.size + byteSize code := rfl
    rw [hsize, ← Nat.add_assoc]
    exact congrArg (start :: ·) (ih (start + i.size))

/-- Where a program stands makes no difference to the distances within it. -/
theorem offsets_add (k start : Nat) (code : List (InstructionOf T)) :
    offsets (k + start) code = (offsets start code).map (k + ·) := by
  induction code generalizing start with
  | nil => rfl
  | cons i code ih =>
    show (k + start) :: offsets (k + start + i.size) code =
      (k + start) :: (offsets (start + i.size) code).map (k + ·)
    rw [Nat.add_assoc, ih]

theorem offsets_mapTarget (start : Nat) (f : T → U) (code : List (InstructionOf T)) :
    offsets start (code.map (·.mapTarget f)) = offsets start code := by
  induction code generalizing start with
  | nil => rfl
  | cons i code ih =>
    show start :: offsets (start + (i.mapTarget f).size) _ = start :: offsets (start + i.size) code
    rw [InstructionOf.size_mapTarget, ih]

end Parts

/-- **Ends of programs.** The end of a program that can be written can be written on its own, with
labels that are counted from its start. -/
theorem Writable.of_append {opening rest : List Instruction}
    (h : Writable (opening ++ rest.map (·.mapTarget (· + opening.length)))) : Writable rest := by
  intro p start i hp hi
  have hoffsets : ∀ q : Nat,
      (offsets 0 (opening ++ rest.map (·.mapTarget (· + opening.length))))[opening.length + q]? =
        ((offsets 0 rest)[q]?).map (byteSize opening + ·) := by
    intro q
    rw [offsets_append, List.getElem?_append_right (by rw [length_offsets]; omega), length_offsets,
      Nat.add_sub_cancel_left, offsets_mapTarget, Nat.zero_add, ← Nat.add_zero (byteSize opening),
      offsets_add, List.getElem?_map]
    rfl
  have hwhole := h (opening.length + p) (byteSize opening + start)
    (i.mapTarget (· + opening.length)) (by rw [hoffsets, hp]; rfl) (by
      rw [List.getElem?_append_right (Nat.le_add_right _ _), Nat.add_sub_cancel_left,
        List.getElem?_map, hi]
      rfl)
  cases i with
  | jump c label =>
    obtain ⟨offset, hoffset, hreach⟩ := hwhole
    dsimp only at hoffset
    rw [Nat.add_comm label, hoffsets] at hoffset
    obtain ⟨offset', hoffset', rfl⟩ := Option.map_eq_some_iff.1 hoffset
    refine ⟨offset', hoffset', ?_⟩
    obtain ⟨hlow, hhigh⟩ := hreach
    constructor <;> omega
  | unbox tag => exact hwhole
  | _ => trivial

end Code

end Interpose
