import Interpose.Proofs.Headers
/-!
# Which bytes are class files

Bytes that are accepted as a class file are what is written of it, but for one byte. In front of the
superclass's name stands a byte that is read as "there is one" whenever it is not zero, and written as
a one; so a class file with a superclass has 255 spellings, and one without has a single one. The
check over the payload follows that byte. Nothing else is left to choice.

No class file is the beginning of another. What is accepted is refused as soon as something is behind
it, and as soon as any of it is missing, wherever it breaks off: in the header, in a count, in a text,
between two tables. The check is compared before anything behind the header is looked at, so it is
what will be reported, unless it happens to fit the bytes that are there.

## Main definitions

* `ClassFile.encodeWith`: the spellings of a class file

## Main results

* `ClassFile.takes_payload`: what is read as the part behind the header
* `encode_agrees_of_decode`, `accepted_prefix_free`
-/

namespace Interpose

open Reader (Reads RunsOut Takes)

/-! ### Parts of a class file -/

theorem Reader.takes_texts : Takes (table text) fun entries bytes =>
    Wire.StorableTable Wire.StorableText entries ∧ bytes = Wire.table Wire.text entries :=
  takes_table takes_text

theorem Pool.takes_read : Takes Pool.read fun p bytes => p.Storable ∧ bytes = p.encode := by
  have hfield : Takes (do
      let owner ← Reader.text
      let name ← Reader.text
      return FieldRef.mk owner name) fun f bytes =>
      f.Storable ∧ bytes = Wire.text f.owner ++ Wire.text f.name := by
    refine Reader.takes_text.bind ?_
    rintro owner _ ⟨howner, rfl⟩
    refine Reader.takes_text.bind ?_
    rintro name _ ⟨hname, rfl⟩
    exact Reader.takes_pure ⟨⟨howner, hname⟩, by simp⟩
  have hmethod : Takes (do
      let owner ← Reader.text
      let name ← Reader.text
      let descriptor ← Reader.text
      return MethodRef.mk owner name descriptor) fun m bytes =>
      m.Storable ∧ bytes = Wire.text m.owner ++ Wire.text m.name ++ Wire.text m.descriptor := by
    refine Reader.takes_text.bind ?_
    rintro owner _ ⟨howner, rfl⟩
    refine Reader.takes_text.bind ?_
    rintro name _ ⟨hname, rfl⟩
    refine Reader.takes_text.bind ?_
    rintro descriptor _ ⟨hdescriptor, rfl⟩
    exact Reader.takes_pure ⟨⟨howner, hname, hdescriptor⟩, by simp⟩
  refine Reader.takes_texts.bind ?_
  rintro strings _ ⟨hstrings, rfl⟩
  refine Reader.takes_texts.bind ?_
  rintro classes _ ⟨hclasses, rfl⟩
  refine (Reader.takes_table hfield).bind ?_
  rintro fields _ ⟨hfields, rfl⟩
  refine (Reader.takes_table hmethod).bind ?_
  rintro methods _ ⟨hmethods, rfl⟩
  exact Reader.takes_pure ⟨⟨hstrings, hclasses, hfields, hmethods⟩, by simp [Pool.encode]⟩

theorem FieldDef.takes_read : Takes FieldDef.read fun f bytes => f.Storable ∧ bytes = f.encode := by
  refine Reader.takes_text.bind ?_
  rintro name _ ⟨hname, rfl⟩
  refine Reader.takes_text.bind ?_
  rintro descriptor _ ⟨hdescriptor, rfl⟩
  refine Reader.takes_u16.bind ?_
  rintro access _ rfl
  exact Reader.takes_pure ⟨⟨hname, hdescriptor⟩, by simp [FieldDef.encode]⟩

theorem MethodDef.takes_read :
    Takes MethodDef.read fun m bytes => m.Storable ∧ bytes = m.encode := by
  refine Reader.takes_text.bind ?_
  rintro name _ ⟨hname, rfl⟩
  refine Reader.takes_text.bind ?_
  rintro descriptor _ ⟨hdescriptor, rfl⟩
  refine Reader.takes_u16.bind ?_
  rintro access _ rfl
  refine Reader.takes_texts.bind ?_
  rintro throws _ ⟨hthrows, rfl⟩
  refine Reader.takes_u16.bind ?_
  rintro maxLocals _ rfl
  refine Reader.takes_blob.bind ?_
  rintro code _ ⟨hcode, rfl⟩
  exact Reader.takes_pure ⟨⟨hname, hdescriptor, hthrows, hcode⟩, by simp [MethodDef.encode]⟩

namespace ClassFile

/-! ### Spellings -/

/-- A byte says truly whether a class file has a superclass. -/
def MarkedBy (c : ClassFile) (presence : UInt8) : Prop := presence = 0 ↔ c.superName = none

/-- The byte that is written in front of the superclass's name. -/
def presence (c : ClassFile) : UInt8 := if c.superName = none then 0 else 1

/-- What is in front of that byte, from the header on. -/
def payloadStart (c : ClassFile) : Bytes := c.constants.encode ++ Wire.text c.name

/-- What is behind it. -/
def payloadEnd (c : ClassFile) : Bytes :=
  c.superName.elim [] Wire.text ++ Wire.u16 c.access
    ++ Wire.table Wire.text c.annotations
    ++ Wire.table FieldDef.encode c.fields
    ++ Wire.table MethodDef.encode c.methods

/-- The payload with another byte in that place. -/
def payloadWith (c : ClassFile) (presence : UInt8) : Bytes :=
  c.payloadStart ++ presence :: c.payloadEnd

/-- The header up to the check. -/
def headerStart (c : ClassFile) : Bytes := magic ++ Wire.u32 version ++ Wire.u32 c.flags

/-- A class file with another byte in front of the superclass's name, and the check that fits. -/
def encodeWith (c : ClassFile) (presence : UInt8) : Bytes :=
  c.headerStart ++ Wire.u32 (Crc32.checksum (c.payloadWith presence)) ++ c.payloadWith presence

/-- Where the check stands. -/
def checksumOffset : Nat := 12

/-- Where the byte in front of the superclass's name stands. -/
def presenceOffset (c : ClassFile) : Nat := headerSize + c.payloadStart.length

variable {c : ClassFile} {flags : UInt32}

/-- A byte that tells the truth is the one that is written, unless it is neither zero nor one. -/
theorem MarkedBy.presence_eq_iff {p : UInt8} (h : c.MarkedBy p) :
    c.presence = p ↔ p = 0 ∨ p = 1 := by
  unfold MarkedBy at h
  rw [presence]
  by_cases hsuper : c.superName = none
  · simp [hsuper, h.2 hsuper]
  · have hzero : p ≠ 0 := fun hp => hsuper (h.1 hp)
    simp [hsuper, hzero, eq_comm]

theorem encode_eq (c : ClassFile) : c.encode = c.encodeWith c.presence := by
  have hpayload : c.payload = c.payloadWith c.presence := by
    unfold payload payloadWith payloadStart payloadEnd presence
    cases c.superName <;> simp [encodeSuper, Wire.u8, LittleEndian.encode]
  simp [encode, encodeWith, headerStart, hpayload]

theorem length_headerStart (c : ClassFile) : c.headerStart.length = checksumOffset := by
  simp [headerStart, magic, Wire.u32, checksumOffset]

/-! ### What is accepted -/

theorem takes_super : Takes readSuper fun superName bytes =>
    (∀ s ∈ superName, Wire.StorableText s) ∧ ∃ presence : UInt8,
      (presence = 0 ↔ superName = none) ∧ bytes = presence :: superName.elim [] Wire.text := by
  refine Reader.takes_u8.bind ?_
  rintro presence _ rfl
  rw [Wire.u8_eq]
  by_cases h : presence = 0
  · rw [if_pos h]
    exact Reader.takes_pure ⟨by simp, presence, by simp [h], by simp⟩
  · rw [if_neg h]
    refine Reader.takes_text.bind ?_
    rintro name _ ⟨hname, rfl⟩
    refine Reader.takes_pure ⟨?_, presence, by simp [h], by simp⟩
    rintro s ⟨⟩
    exact hname

/-- **The part behind the header.** -/
theorem takes_payload (flags : UInt32) : Takes (readPayload flags) fun c bytes =>
    c.flags = flags ∧ c.Storable ∧ ∃ presence, c.MarkedBy presence ∧
      bytes = c.payloadWith presence := by
  refine Pool.takes_read.bind ?_
  rintro constants _ ⟨hconstants, rfl⟩
  refine Reader.takes_text.bind ?_
  rintro name _ ⟨hname, rfl⟩
  refine takes_super.bind ?_
  rintro superName _ ⟨hsuper, presence, hpresence, rfl⟩
  refine Reader.takes_u16.bind ?_
  rintro access _ rfl
  refine Reader.takes_texts.bind ?_
  rintro annotations _ ⟨hannotations, rfl⟩
  refine (Reader.takes_table FieldDef.takes_read).bind ?_
  rintro fields _ ⟨hfields, rfl⟩
  refine (Reader.takes_table MethodDef.takes_read).bind ?_
  rintro methods _ ⟨hmethods, rfl⟩
  exact Reader.takes_pure ⟨rfl, ⟨hconstants, hname, hsuper, hannotations, hfields, hmethods⟩,
    presence, hpresence, by simp [payloadWith, payloadStart, payloadEnd]⟩

/-! ### The whole file -/

/-- What is read as a payload is one, and it is all that is there. -/
theorem takes_of_decodePayload {payload : Bytes} (h : decodePayload flags payload = .ok c) :
    c.flags = flags ∧ c.Storable ∧ ∃ presence, c.MarkedBy presence ∧
      payload = c.payloadWith presence ∧ Reads (readPayload flags) payload c ∧
      RunsOut (readPayload flags) payload := by
  obtain ⟨⟨file, k⟩, hstep, h⟩ := Results.bind_eq_ok h
  obtain ⟨_, hpayload, ⟨hflags, hstorable, presence, hmarked, rfl⟩, hreads, hout⟩ :=
    takes_payload flags _ _ _ _ (run_of_readStep hstep)
  dsimp only at h
  split at h
  · cases h
  · rename_i hmore
    cases h
    have hrest : k.rest = [] := by simpa [Cursor.hasMore] using hmore
    rw [hrest, List.append_nil] at hpayload
    subst hpayload
    exact ⟨hflags, hstorable, presence, hmarked, rfl, hreads, hout⟩

/-- A payload with something behind it. -/
theorem decodePayload_append {payload more : Bytes} (h : Reads (readPayload flags) payload c)
    (hmore : more ≠ []) : decodePayload flags (payload ++ more) =
      .error (.trailingData (headerSize + payload.length)) := by
  have hhas : (Cursor.mk (headerSize + payload.length) more).hasMore = true := by
    simpa [Cursor.hasMore] using hmore
  rw [decodePayload, readStep_bind h]
  dsimp only
  rw [if_pos hhas]
  rfl

/-- **Accepted bytes** are a spelling of the class file that is read from them. -/
theorem exists_presence_of_decode {bytes : Bytes} (h : decode bytes = .ok c) :
    c.Storable ∧ ∃ presence, c.MarkedBy presence ∧ bytes = c.encodeWith presence ∧
      Reads (readPayload c.flags) (c.payloadWith presence) c ∧
      RunsOut (readPayload c.flags) (c.payloadWith presence) := by
  obtain ⟨found, v, flags, stored, payload, hfound, rfl⟩ := exists_header_of_decode h
  rw [decode_header hfound] at h
  split at h
  · cases h
  split at h
  · cases h
  split at h
  · cases h
  rename_i hmagic hversion hcheck
  obtain ⟨rfl, hstorable, presence, hmarked, rfl, hreads, hout⟩ := takes_of_decodePayload h
  refine ⟨hstorable, presence, hmarked, ?_, hreads, hout⟩
  rw [Decidable.of_not_not hmagic, Decidable.of_not_not hversion, Decidable.of_not_not hcheck]
  simp [encodeWith, headerStart]

/-- The spellings of a class file differ in two places. -/
theorem getElem?_encodeWith {i : Nat} (hpresence : i ≠ c.presenceOffset)
    (hcheck : ¬(checksumOffset ≤ i ∧ i < headerSize)) (p q : UInt8) :
    (c.encodeWith p)[i]? = (c.encodeWith q)[i]? := by
  have hlength := length_headerStart (c := c)
  simp only [checksumOffset, headerSize, presenceOffset] at hpresence hcheck hlength
  simp only [encodeWith, payloadWith, List.append_assoc, List.getElem?_append, Wire.u32,
    LittleEndian.length_encode, List.getElem?_cons, hlength]
  by_cases hstart : i < 12
  · simp [hstart]
  · have hpayload : ¬ i - 12 < 4 := by omega
    have hplace : i - 12 - 4 - c.payloadStart.length ≠ 0 ∨
        i - 12 - 4 < c.payloadStart.length := by omega
    rcases hplace with hplace | hplace <;> simp [hstart, hpayload, hplace]

theorem getElem?_presenceOffset (p : UInt8) : (c.encodeWith p)[c.presenceOffset]? = some p := by
  have hlength : (c.headerStart ++ Wire.u32 (Crc32.checksum (c.payloadWith p)) ++
      c.payloadStart).length = c.presenceOffset := by
    simp [length_headerStart, Wire.u32, checksumOffset, presenceOffset, headerSize]
    omega
  have hspelling : c.encodeWith p = c.headerStart ++ Wire.u32 (Crc32.checksum (c.payloadWith p)) ++
      c.payloadStart ++ p :: c.payloadEnd := by
    simp [encodeWith, payloadWith]
  rw [hspelling, ← hlength, List.getElem?_append_right (Nat.le_refl _), Nat.sub_self]
  rfl

theorem length_encodeWith (p : UInt8) : (c.encodeWith p).length =
    headerSize + c.payloadStart.length + 1 + c.payloadEnd.length := by
  have hlength := length_headerStart (c := c)
  simp [encodeWith, payloadWith, hlength, Wire.u32, checksumOffset, headerSize]
  omega

end ClassFile

/-- **Spellings.** What is written of a class file that was accepted is as long as the accepted bytes
and differs from them in the byte in front of the superclass's name and in the check, if at all; not
at all exactly if that byte is a zero or a one. It is accepted as the same class file. -/
theorem encode_agrees_of_decode {bytes : Bytes} {c : ClassFile}
    (h : ClassFile.decode bytes = .ok c) :
    c.encode.length = bytes.length ∧
    (∀ i, i ≠ c.presenceOffset →
      ¬(ClassFile.checksumOffset ≤ i ∧ i < ClassFile.headerSize) → c.encode[i]? = bytes[i]?) ∧
    (∃ presence, bytes[c.presenceOffset]? = some presence ∧
      (c.encode = bytes ↔ presence = 0 ∨ presence = 1)) ∧
    ClassFile.decode c.encode = .ok c := by
  obtain ⟨hstorable, presence, hmarked, rfl, -, -⟩ := ClassFile.exists_presence_of_decode h
  have hown := ClassFile.getElem?_presenceOffset (c := c)
  refine ⟨?_, fun i hi hcheck => ?_, ⟨presence, hown presence, ?_⟩, ClassFile.decode_encode hstorable⟩
  · rw [ClassFile.encode_eq, ClassFile.length_encodeWith, ClassFile.length_encodeWith]
  · rw [ClassFile.encode_eq]
    exact ClassFile.getElem?_encodeWith hi hcheck _ _
  · rw [ClassFile.encode_eq, ← hmarked.presence_eq_iff]
    refine ⟨fun heq => ?_, fun heq => by rw [heq]⟩
    have hbyte := congrArg (·[c.presenceOffset]?) heq
    simpa [hown] using hbyte

/-- A class file with a superclass. -/
def heirFile : ClassFile where
  name := "t.B"
  superName := some "t.A"
  fields := [⟨"x", "I", 0⟩]

/-- A seven says that there is a superclass as well as a one does, and is not what is written. -/
theorem heirFile_respelled :
    ClassFile.decode (heirFile.encodeWith 7) = .ok heirFile ∧
    heirFile.encode.length = (heirFile.encodeWith 7).length ∧
    heirFile.encode[heirFile.presenceOffset + 1]? =
      (heirFile.encodeWith 7)[heirFile.presenceOffset + 1]? ∧
    heirFile.encode ≠ heirFile.encodeWith 7 := by
  have hdecode : ClassFile.decode (heirFile.encodeWith 7) = .ok heirFile := by decide +kernel
  obtain ⟨hlength, hplaces, ⟨presence, hpresence, hsame⟩, -⟩ := encode_agrees_of_decode hdecode
  have hseven : presence = 7 := by
    simpa [ClassFile.getElem?_presenceOffset] using hpresence.symm
  have hplace := hplaces (heirFile.presenceOffset + 1) (Nat.succ_ne_self _) (by decide +kernel)
  refine ⟨hdecode, hlength, hplace, fun heq => ?_⟩
  have hbyte := hsame.1 heq
  rw [hseven] at hbyte
  exact absurd hbyte (by decide)

/-- **No class file is the beginning of another.** Whatever follows accepted bytes, they are refused
for the check or for what follows. Whatever part of them is left, it is refused for the check or for
what is missing, and for the check only if the header is all there. -/
theorem accepted_prefix_free {bytes : Bytes} {c : ClassFile} (h : ClassFile.decode bytes = .ok c) :
    (∀ more, more ≠ [] →
      (∃ stored computed, ClassFile.decode (bytes ++ more) =
        .error (.checksumMismatch stored computed)) ∨
      ClassFile.decode (bytes ++ more) = .error (.trailingData bytes.length)) ∧
    ∀ part, part <+: bytes → part ≠ bytes →
      (ClassFile.headerSize ≤ part.length ∧ ∃ stored computed, ClassFile.decode part =
        .error (.checksumMismatch stored computed)) ∨
      ∃ offset, ClassFile.decode part = .error (.decode (.unexpectedEnd offset)) := by
  obtain ⟨-, presence, -, rfl, hreads, hout⟩ := ClassFile.exists_presence_of_decode h
  have hmagic : ClassFile.magic.length = 4 := rfl
  have hspelling : ∀ payload, c.headerStart ++
      Wire.u32 (Crc32.checksum (c.payloadWith presence)) ++ payload =
      ClassFile.magic ++ (Wire.u32 ClassFile.version ++ (Wire.u32 c.flags ++
        (Wire.u32 (Crc32.checksum (c.payloadWith presence)) ++ payload))) := by
    simp [ClassFile.headerStart]
  constructor
  · intro more hmore
    rw [ClassFile.encodeWith, List.append_assoc, hspelling, ClassFile.decode_header hmagic,
      if_neg (not_not_intro rfl), if_neg (not_not_intro rfl)]
    split
    · exact .inl ⟨_, _, rfl⟩
    · right
      rw [ClassFile.decodePayload_append hreads hmore]
      simp [ClassFile.length_headerStart, Wire.u32, ClassFile.headerSize, ClassFile.checksumOffset]
      omega
  · intro part hpart hne
    rw [ClassFile.encodeWith] at hpart hne
    by_cases hlt : part.length < ClassFile.headerSize
    · rw [hspelling] at hpart
      exact .inr (ClassFile.exists_unexpectedEnd_of_lt hpart hlt)
    rcases Reader.part_append hpart with ⟨-, hshort⟩ | ⟨payload, rfl, hpayload⟩
    · simp [ClassFile.length_headerStart, Wire.u32, ClassFile.checksumOffset] at hshort
      exact absurd hshort hlt
    rw [hspelling, ClassFile.decode_header hmagic, if_neg (not_not_intro rfl),
      if_neg (not_not_intro rfl), ← hspelling]
    split
    · exact .inl ⟨Nat.le_of_not_lt hlt, _, _, rfl⟩
    · right
      obtain ⟨offset, k, hrun⟩ := hout ClassFile.headerSize payload hpayload
        fun heq => hne (by rw [heq])
      rw [ClassFile.decodePayload, ClassFile.readStep_of_error hrun]
      exact ⟨offset, rfl⟩

/-- The same file with a byte more, and broken off in its header. -/
theorem heirFile_extended_and_cut :
    ClassFile.decode (heirFile.encodeWith 7) = .ok heirFile ∧
    ((∃ stored computed, ClassFile.decode (heirFile.encodeWith 7 ++ [0]) =
        .error (.checksumMismatch stored computed)) ∨
      ClassFile.decode (heirFile.encodeWith 7 ++ [0]) =
        .error (.trailingData (heirFile.encodeWith 7).length)) ∧
    ∃ offset, ClassFile.decode ((heirFile.encodeWith 7).take 9) =
      .error (.decode (.unexpectedEnd offset)) := by
  have hdecode : ClassFile.decode (heirFile.encodeWith 7) = .ok heirFile := by decide +kernel
  obtain ⟨hmore, hpart⟩ := accepted_prefix_free hdecode
  refine ⟨hdecode, hmore [0] (List.cons_ne_nil _ _), ?_⟩
  refine (hpart _ (List.take_prefix 9 _) (by decide +kernel)).resolve_left fun hheader => ?_
  exact absurd hheader.1 (by decide +kernel)

end Interpose
