import Interpose.Proofs.Headers
/-!
# Damaged class files

One byte of a class file is replaced by another. What comes of reading it depends on where the byte
stands, and on nothing else: the magic and the version are compared with what they have to be, the
flags are not checked at all, and everything behind them is covered by the check, the check itself
included.

That the check finds every single damaged byte, however long the payload, is a fact about the register.
A step is injective: the polynomial has its top bit, so the bit that was shifted out can be told from
the bit that came in at the top. So two registers that differ once differ for ever after, and two
bytes make one register differ.

## Main results

* `Crc32.step_injective`
* `Crc32.checksum_ne_of_ne`: the check of bytes that differ in one place
* `decode_damaged`
-/

namespace Interpose

namespace Crc32

/-! ### Steps of the register -/

theorem toNat_half (r : UInt32) : (r >>> 1).toNat = r.toNat / 2 := by
  simp [UInt32.toNat_shiftRight, Nat.shiftRight_eq_div_pow]

theorem lowBit_eq_one_iff (r : UInt32) : r &&& 1 = 1 ↔ r.toNat % 2 = 1 := by
  rw [← UInt32.toNat_inj, UInt32.toNat_and]
  simp [Nat.and_one_is_mod]

/-- A register is its upper bits and its lowest one. -/
theorem eq_of_half_eq {r s : UInt32} (h : r >>> 1 = s >>> 1) (hlow : r.toNat % 2 = s.toNat % 2) :
    r = s := by
  have hhalf := congrArg UInt32.toNat h
  rw [toNat_half, toNat_half] at hhalf
  apply UInt32.toNat_inj.1
  omega

/-- The polynomial sets the top bit, which a shift has cleared. -/
theorem half_xor_ne (r s : UInt32) : (r >>> 1) ^^^ polynomial ≠ s >>> 1 := by
  intro h
  have hpolynomial : polynomial = (r >>> 1) ^^^ (s >>> 1) := by
    rw [← h, ← UInt32.xor_assoc, UInt32.xor_self, UInt32.zero_xor]
  have hlt : ((r >>> 1) ^^^ (s >>> 1)).toNat < 2 ^ 31 := by
    rw [UInt32.toNat_xor]
    have hr := r.toNat_lt
    have hs := s.toNat_lt
    apply Nat.xor_lt_two_pow <;> rw [toNat_half] <;> omega
  rw [← hpolynomial] at hlt
  exact absurd hlt (by decide)

theorem step_injective {r s : UInt32} (h : step r = step s) : r = s := by
  unfold step at h
  by_cases hr : r &&& 1 = 1 <;> by_cases hs : s &&& 1 = 1
  · rw [if_pos hr, if_pos hs] at h
    rw [lowBit_eq_one_iff] at hr hs
    exact eq_of_half_eq ((UInt32.xor_left_inj polynomial).1 h) (hr.trans hs.symm)
  · rw [if_pos hr, if_neg hs] at h
    exact absurd h (half_xor_ne r s)
  · rw [if_neg hr, if_pos hs] at h
    exact absurd h.symm (half_xor_ne s r)
  · rw [if_neg hr, if_neg hs] at h
    rw [lowBit_eq_one_iff] at hr hs
    exact eq_of_half_eq h (by omega)

theorem stepByte_injective {r s : UInt32} (h : stepByte r = stepByte s) : r = s :=
  step_injective (step_injective (step_injective (step_injective (step_injective (step_injective
    (step_injective (step_injective h)))))))

/-! ### Bytes -/

theorem update_left_injective {r s : UInt32} {b : UInt8} (h : update r b = update s b) : r = s :=
  (UInt32.xor_left_inj _).1 (stepByte_injective h)

theorem update_right_injective {r : UInt32} {a b : UInt8} (h : update r a = update r b) : a = b := by
  have hword := (UInt32.xor_right_inj _).1 (stepByte_injective h)
  simpa [← UInt32.toNat_inj, UInt8.toNat_inj] using hword

/-- The same bytes keep different registers apart. -/
theorem foldl_update_injective {r s : UInt32} {bytes : Bytes}
    (h : bytes.foldl update r = bytes.foldl update s) : r = s := by
  induction bytes generalizing r s with
  | nil => exact h
  | cons b bytes ih => exact update_left_injective (ih h)

theorem checksum_append_cons_inj {left right : Bytes} {a b : UInt8}
    (h : checksum (left ++ a :: right) = checksum (left ++ b :: right)) : a = b := by
  unfold checksum at h
  rw [UInt32.not_inj, List.foldl_append, List.foldl_append] at h
  exact update_right_injective (foldl_update_injective h)

/-- **One damaged byte** is found, wherever it stands. -/
theorem checksum_set_ne {bytes : Bytes} {i : Nat} (hi : i < bytes.length) {b : UInt8}
    (hb : bytes[i] ≠ b) : checksum (bytes.set i b) ≠ checksum bytes := by
  intro h
  have hbytes : bytes.take i ++ bytes[i] :: bytes.drop (i + 1) = bytes := by simp
  rw [List.set_eq_take_append_cons_drop, if_pos hi] at h
  exact hb (checksum_append_cons_inj ((congrArg checksum hbytes).trans h.symm))

end Crc32

namespace ClassFile

variable {c : ClassFile} {p : Nat} {b : UInt8}

theorem set_ne {bytes : Bytes} {i : Nat} (hi : i < bytes.length) (hb : bytes[i] ≠ b) :
    bytes.set i b ≠ bytes := by
  intro h
  have hplace := congrArg (·[i]?) h
  rw [List.getElem?_set_self hi, List.getElem?_eq_getElem hi] at hplace
  exact hb (Option.some.inj hplace).symm

/-- A damaged number is another number. -/
theorem exists_set_u32 {v : UInt32} (hp : p < (Wire.u32 v).length) (hb : (Wire.u32 v)[p] ≠ b) :
    ∃ w, w ≠ v ∧ (Wire.u32 v).set p b = Wire.u32 w := by
  have hlength : ((Wire.u32 v).set p b).length = 4 := by simp [Wire.u32]
  obtain ⟨w, hw⟩ := exists_u32 hlength
  refine ⟨w, ?_, hw⟩
  rintro rfl
  exact set_ne hp hb hw

/-- What is damaged in one of two runs of bytes leaves the other alone. -/
theorem set_append_cases {l r : Bytes} (hp : p < (l ++ r).length) (hb : (l ++ r)[p] ≠ b) :
    (∃ h : p < l.length, l[p] ≠ b ∧ (l ++ r).set p b = l.set p b ++ r) ∨
    (l.length ≤ p ∧ ∃ h : p - l.length < r.length, r[p - l.length] ≠ b ∧
      (l ++ r).set p b = l ++ r.set (p - l.length) b) := by
  by_cases h : p < l.length
  · rw [List.getElem_append_left h] at hb
    exact .inl ⟨h, hb, List.set_append_left p b h⟩
  · have hle : l.length ≤ p := Nat.le_of_not_lt h
    rw [List.getElem_append_right hle] at hb
    rw [List.length_append] at hp
    exact .inr ⟨hle, by omega, hb, List.set_append_right p b hle⟩

theorem encode_header (c : ClassFile) : c.encode = magic ++ (Wire.u32 version ++
    (Wire.u32 c.flags ++ (Wire.u32 (Crc32.checksum c.payload) ++ c.payload))) := by
  simp [encode]

/-- The flags are not part of what is checked. -/
theorem decode_flags (h : c.Storable) (flags : UInt32) :
    decode (magic ++ (Wire.u32 version ++ (Wire.u32 flags ++
      (Wire.u32 (Crc32.checksum c.payload) ++ c.payload)))) = .ok { c with flags := flags } := by
  have hstorable : ({ c with flags := flags } : ClassFile).Storable := { h with }
  have hdecode := decode_encode hstorable
  rwa [encode_header] at hdecode

end ClassFile

/-- **Damage.** A class file in which one byte is replaced by another is refused for its magic or its
version, if the byte is one of theirs, and for the check, if it is behind the flags. Among the flags
it passes, and changes nothing but them. -/
theorem decode_damaged {c : ClassFile} (h : c.Storable) {p : Nat} (hp : p < c.encode.length)
    {b : UInt8} (hb : c.encode[p] ≠ b) :
    (p < 4 → ∃ found, found ≠ ClassFile.magic ∧
      ClassFile.decode (c.encode.set p b) = .error (.invalidMagic found)) ∧
    (4 ≤ p → p < 8 → ∃ v, v ≠ ClassFile.version ∧
      ClassFile.decode (c.encode.set p b) = .error (.unsupportedVersion v)) ∧
    (8 ≤ p → p < 12 → ∃ flags, flags ≠ c.flags ∧
      ClassFile.decode (c.encode.set p b) = .ok { c with flags := flags }) ∧
    (12 ≤ p → ∃ stored computed, stored ≠ computed ∧
      ClassFile.decode (c.encode.set p b) = .error (.checksumMismatch stored computed)) := by
  have hmagic : ClassFile.magic.length = 4 := rfl
  have hword : ∀ v, (Wire.u32 v).length = 4 := fun v => LittleEndian.length_encode 4 _
  have hversion := hword ClassFile.version
  have hflags := hword c.flags
  have hcheck := hword (Crc32.checksum c.payload)
  have hheader := @ClassFile.decode_header
  revert hp hb
  rw [ClassFile.encode_header]
  intro hp hb
  rcases ClassFile.set_append_cases hp hb with ⟨hp, hb, heq⟩ | ⟨hle, hp, hb, heq⟩ <;> rw [heq]
  · have hne := ClassFile.set_ne hp hb
    rw [hheader (by simp [hmagic]), if_pos hne]
    exact ⟨fun _ => ⟨_, hne, rfl⟩, by omega, by omega, by omega⟩
  rcases ClassFile.set_append_cases hp hb with ⟨hp, hb, heq⟩ | ⟨hle, hp, hb, heq⟩ <;> rw [heq]
  · obtain ⟨v, hne, hset⟩ := ClassFile.exists_set_u32 hp hb
    rw [hset, hheader hmagic, if_neg (not_not_intro rfl), if_pos hne]
    exact ⟨by omega, fun _ _ => ⟨v, hne, rfl⟩, by omega, by omega⟩
  rcases ClassFile.set_append_cases hp hb with ⟨hp, hb, heq⟩ | ⟨hle, hp, hb, heq⟩ <;> rw [heq]
  · obtain ⟨flags, hne, hset⟩ := ClassFile.exists_set_u32 hp hb
    rw [hset, ClassFile.decode_flags h]
    exact ⟨by omega, by omega, fun _ _ => ⟨flags, hne, rfl⟩, by omega⟩
  rcases ClassFile.set_append_cases hp hb with ⟨hp, hb, heq⟩ | ⟨hle, hp, hb, heq⟩ <;> rw [heq]
  · obtain ⟨stored, hne, hset⟩ := ClassFile.exists_set_u32 hp hb
    rw [hset, hheader hmagic, if_neg (not_not_intro rfl), if_neg (not_not_intro rfl), if_pos hne]
    exact ⟨by omega, by omega, by omega, fun _ => ⟨_, _, hne, rfl⟩⟩
  · have hne := Crc32.checksum_set_ne hp hb
    rw [hheader hmagic, if_neg (not_not_intro rfl), if_neg (not_not_intro rfl), if_pos hne.symm]
    exact ⟨by omega, by omega, by omega, fun _ => ⟨_, _, hne.symm, rfl⟩⟩

/-- Four places of a class file: in its magic, its version, its flags and its payload. -/
theorem oddFile_damaged :
    oddFile.Storable ∧
    (∃ found, ClassFile.decode (oddFile.encode.set 1 0) = .error (.invalidMagic found)) ∧
    (∃ v, ClassFile.decode (oddFile.encode.set 7 1) = .error (.unsupportedVersion v)) ∧
    (∃ flags, flags ≠ oddFile.flags ∧
      ClassFile.decode (oddFile.encode.set 11 5) = .ok { oddFile with flags := flags }) ∧
    ∃ stored computed, ClassFile.decode (oddFile.encode.set 16 1) =
      .error (.checksumMismatch stored computed) := by
  have hodd : oddFile.Storable :=
    ⟨⟨by decide, by decide, by decide, by decide⟩, by decide, by decide, by decide, by decide,
      by decide⟩
  obtain ⟨found, -, hmagic⟩ := (decode_damaged hodd (p := 1) (b := 0) (by decide +kernel)
    (by decide +kernel)).1 (by omega)
  obtain ⟨v, -, hversion⟩ := (decode_damaged hodd (p := 7) (b := 1) (by decide +kernel)
    (by decide +kernel)).2.1 (by omega) (by omega)
  obtain ⟨flags, hflags⟩ := (decode_damaged hodd (p := 11) (b := 5) (by decide +kernel)
    (by decide +kernel)).2.2.1 (by omega) (by omega)
  obtain ⟨stored, computed, -, hcheck⟩ := (decode_damaged hodd (p := 16) (b := 1) (by decide +kernel)
    (by decide +kernel)).2.2.2 (by omega)
  exact ⟨hodd, ⟨found, hmagic⟩, ⟨v, hversion⟩, ⟨flags, hflags⟩, stored, computed, hcheck⟩

end Interpose
