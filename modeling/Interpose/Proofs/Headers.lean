import Interpose.Proofs.ClassFiles
import Interpose.Proofs.Readers
/-!
# What the header decides

Four fields of four bytes stand in front of the payload of a class file. What comes of reading a file
hangs on them one after the other: the magic, the version, and the check, which is compared with the
payload before anything in the payload is read. The flags decide nothing.

So reading is a chain of three tests and then the reading of the payload, whatever these sixteen bytes
are. Everything that is proved about damaged, shortened or extended files starts from that equation.

## Main definitions

* `ClassFile.decodePayload`: what is left to do once the header has passed

## Main results

* `ClassFile.decode_header`, `ClassFile.exists_header_of_decode`
* `ClassFile.exists_unexpectedEnd_of_lt`: files that end in the header
-/

namespace Interpose

namespace ClassFile

variable {bytes found : Bytes} {c : ClassFile}

/-- What comes of a payload whose header has passed. -/
def decodePayload (flags : UInt32) (payload : Bytes) : Except ClassFileError ClassFile := do
  let (file, k) ← readStep (readPayload flags) ⟨headerSize, payload⟩
  if k.hasMore then throw (.trailingData k.position)
  return file

theorem run_of_readStep {α : Type} {read : Reader α} {k k' : Cursor} {a : α}
    (h : readStep read k = .ok (a, k')) : read.run k = (.ok a, k') := by
  unfold readStep at h
  split at h
  · rename_i hrun
    cases h
    exact hrun
  · cases h

theorem readStep_of_error {α : Type} {read : Reader α} {k k' : Cursor} {e : DecodeError}
    (h : read.run k = (.error e, k')) : readStep read k = .error (.decode e) := by
  unfold readStep
  rw [h]

/-- **The header.** -/
theorem decode_header (hfound : found.length = 4) (v flags stored : UInt32) (payload : Bytes) :
    decode (found ++ (Wire.u32 v ++ (Wire.u32 flags ++ (Wire.u32 stored ++ payload)))) =
      if found ≠ magic then .error (.invalidMagic found)
      else if v ≠ version then .error (.unsupportedVersion v)
      else if stored ≠ Crc32.checksum payload then
        .error (.checksumMismatch stored (Crc32.checksum payload))
      else decodePayload flags payload := by
  unfold decode
  rw [Cursor.start, readStep_bind (Reader.reads_take hfound)]
  dsimp only
  split
  · rfl
  rw [readStep_bind (Reader.reads_u32 v)]
  dsimp only
  split
  · rfl
  rw [readStep_bind (Reader.reads_u32 flags)]
  dsimp only
  rw [readStep_bind (Reader.reads_u32 stored)]
  dsimp only
  split
  · rfl
  have hposition : 0 + found.length + (Wire.u32 v).length + (Wire.u32 flags).length +
      (Wire.u32 stored).length = headerSize := by
    simp [hfound, Wire.u32, headerSize]
  rw [hposition]
  rfl

/-- What is accepted has a header. -/
theorem exists_header_of_decode (h : decode bytes = .ok c) :
    ∃ found v flags stored payload, found.length = 4 ∧
      bytes = found ++ (Wire.u32 v ++ (Wire.u32 flags ++ (Wire.u32 stored ++ payload))) := by
  unfold decode at h
  obtain ⟨⟨found, k₁⟩, hmagic, h⟩ := Results.bind_eq_ok h
  obtain ⟨_, hbytes, ⟨rfl, hfound⟩, -, -⟩ := Reader.takes_take 4 0 bytes _ _ (run_of_readStep hmagic)
  dsimp only at h
  split at h
  · cases h
  obtain ⟨⟨v, k₂⟩, hversion, h⟩ := Results.bind_eq_ok h
  obtain ⟨_, hk₁, rfl, -, -⟩ := Reader.takes_u32 _ _ _ _ (run_of_readStep hversion)
  dsimp only at h
  split at h
  · cases h
  obtain ⟨⟨flags, k₃⟩, hflags, h⟩ := Results.bind_eq_ok h
  obtain ⟨_, hk₂, rfl, -, -⟩ := Reader.takes_u32 _ _ _ _ (run_of_readStep hflags)
  obtain ⟨⟨stored, k₄⟩, hstored, h⟩ := Results.bind_eq_ok h
  obtain ⟨_, hk₃, rfl, -, -⟩ := Reader.takes_u32 _ _ _ _ (run_of_readStep hstored)
  exact ⟨_, v, flags, stored, k₄.rest, hfound, by rw [hbytes, hk₁, hk₂, hk₃]⟩

/-! ### Files that end in the header -/

/-- Any four bytes are a number. -/
theorem exists_u32 (h : bytes.length = 4) : ∃ v, bytes = Wire.u32 v := by
  have hlt : LittleEndian.decode bytes < Nat.pow 256 4 := h ▸ LittleEndian.decode_lt bytes
  refine ⟨UInt32.ofNat (LittleEndian.decode bytes), ?_⟩
  rw [Wire.u32, UInt32.toNat_ofNat', Nat.mod_eq_of_lt hlt, ← h, LittleEndian.encode_decode]

/-- Magic and version are there and the rest of the header is not. -/
theorem exists_unexpectedEnd_of_short {rest : Bytes} (hlt : rest.length < 8) :
    ∃ offset, decode (magic ++ (Wire.u32 version ++ rest)) =
      .error (.decode (.unexpectedEnd offset)) := by
  have hmagic : Reader.Reads (Reader.take 4) magic magic := Reader.reads_take rfl
  unfold decode
  rw [Cursor.start, readStep_bind hmagic]
  dsimp only
  rw [if_neg (not_not_intro rfl), readStep_bind (Reader.reads_u32 version)]
  dsimp only
  rw [if_neg (not_not_intro rfl)]
  by_cases hflags : rest.length < 4
  · rw [readStep_of_error (Reader.run_u32_of_lt hflags _)]
    exact ⟨_, rfl⟩
  · obtain ⟨flags, hfour⟩ : ∃ v, rest.take 4 = Wire.u32 v := exists_u32 (by
      rw [List.length_take]
      omega)
    have hstored : (rest.drop 4).length < 4 := by
      rw [List.length_drop]
      omega
    rw [← List.take_append_drop 4 rest, hfour, readStep_bind (Reader.reads_u32 flags)]
    dsimp only
    rw [readStep_of_error (Reader.run_u32_of_lt hstored _)]
    exact ⟨_, rfl⟩

/-- **Files that end in the header.** As far as the magic and the version go they are right, and then
nothing is found but that bytes are missing. -/
theorem exists_unexpectedEnd_of_lt {part rest : Bytes}
    (hpart : part <+: magic ++ (Wire.u32 version ++ rest)) (hlt : part.length < headerSize) :
    ∃ offset, decode part = .error (.decode (.unexpectedEnd offset)) := by
  rcases Reader.part_append hpart with ⟨-, hshort⟩ | ⟨part₁, rfl, hpart₁⟩
  · have hrun := Reader.run_take_of_lt (n := 4) hshort 0
    refine ⟨0, ?_⟩
    unfold decode
    rw [Cursor.start, readStep_of_error hrun]
    rfl
  rcases Reader.part_append hpart₁ with ⟨-, hshort⟩ | ⟨part₂, rfl, -⟩
  · have hmagic : Reader.Reads (Reader.take 4) magic magic := Reader.reads_take rfl
    have hfour : part₁.length < 4 := by simpa [Wire.u32] using hshort
    have hrun := Reader.run_u32_of_lt hfour 4
    refine ⟨4, ?_⟩
    unfold decode
    rw [Cursor.start, readStep_bind hmagic]
    dsimp only
    rw [if_neg (not_not_intro rfl)]
    exact congrArg (· >>= _) (readStep_of_error hrun)
  · refine exists_unexpectedEnd_of_short ?_
    simp [magic, Wire.u32, headerSize] at hlt
    omega

end ClassFile

end Interpose
