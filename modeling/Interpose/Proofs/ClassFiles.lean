import Interpose.ClassFile.Codec
import Interpose.Proofs.Fields
import Interpose.Proofs.Results
/-!
# Class files there and back

A class file is read from what is written of it, whatever it holds: texts may be empty, entries may be
repeated, descriptors and bodies need not make sense, and bits without a meaning are kept. All it takes
is that what stands behind a count can be counted. So different class files are written differently.

The check over the payload is computed twice from the same bytes; nothing else is used of it.

## Main definitions

* `ClassFile.Storable`: a class file in which everything can be counted

## Main results

* `ClassFile.reads_payload`: what stands behind the header
* `decode_encode_of_storable`
-/

namespace Interpose

/-! ### What can be stored -/

/-- A text whose bytes can be counted. -/
def Wire.StorableText (s : String) : Prop := (Wire.utf8 s).length < UInt32.size

/-- A table whose entries can be counted, and each stored. -/
def Wire.StorableTable {α : Type} (storable : α → Prop) (entries : List α) : Prop :=
  entries.length < UInt32.size ∧ ∀ a ∈ entries, storable a

structure FieldRef.Storable (f : FieldRef) : Prop where
  owner : Wire.StorableText f.owner
  name : Wire.StorableText f.name

structure MethodRef.Storable (m : MethodRef) : Prop where
  owner : Wire.StorableText m.owner
  name : Wire.StorableText m.name
  descriptor : Wire.StorableText m.descriptor

structure Pool.Storable (p : Pool) : Prop where
  strings : Wire.StorableTable Wire.StorableText p.strings
  classes : Wire.StorableTable Wire.StorableText p.classes
  fields : Wire.StorableTable FieldRef.Storable p.fields
  methods : Wire.StorableTable MethodRef.Storable p.methods

structure FieldDef.Storable (f : FieldDef) : Prop where
  name : Wire.StorableText f.name
  descriptor : Wire.StorableText f.descriptor

structure MethodDef.Storable (m : MethodDef) : Prop where
  name : Wire.StorableText m.name
  descriptor : Wire.StorableText m.descriptor
  exceptions : Wire.StorableTable Wire.StorableText m.exceptions
  code : m.code.length < UInt32.size

/-- A class file in which everything that stands behind a count can be counted. -/
structure ClassFile.Storable (c : ClassFile) : Prop where
  constants : c.constants.Storable
  name : Wire.StorableText c.name
  superName : ∀ s ∈ c.superName, Wire.StorableText s
  annotations : Wire.StorableTable Wire.StorableText c.annotations
  fields : Wire.StorableTable FieldDef.Storable c.fields
  methods : Wire.StorableTable MethodDef.Storable c.methods

instance : DecidablePred Wire.StorableText := fun s =>
  inferInstanceAs (Decidable ((Wire.utf8 s).length < UInt32.size))

instance {α : Type} {storable : α → Prop} [DecidablePred storable] :
    DecidablePred (Wire.StorableTable storable) := fun entries =>
  inferInstanceAs (Decidable (entries.length < UInt32.size ∧ ∀ a ∈ entries, storable a))

instance : DecidablePred FieldRef.Storable := fun _ =>
  decidable_of_iff (_ ∧ _) ⟨fun ⟨owner, name⟩ => ⟨owner, name⟩, fun ⟨owner, name⟩ => ⟨owner, name⟩⟩

instance : DecidablePred MethodRef.Storable := fun _ =>
  decidable_of_iff (_ ∧ _ ∧ _) ⟨fun ⟨owner, name, descriptor⟩ => ⟨owner, name, descriptor⟩,
    fun ⟨owner, name, descriptor⟩ => ⟨owner, name, descriptor⟩⟩

instance : DecidablePred FieldDef.Storable := fun _ =>
  decidable_of_iff (_ ∧ _)
    ⟨fun ⟨name, descriptor⟩ => ⟨name, descriptor⟩, fun ⟨name, descriptor⟩ => ⟨name, descriptor⟩⟩

instance : DecidablePred MethodDef.Storable := fun _ =>
  decidable_of_iff (_ ∧ _ ∧ _ ∧ _) ⟨fun ⟨name, descriptor, throws, code⟩ =>
    ⟨name, descriptor, throws, code⟩, fun ⟨name, descriptor, throws, code⟩ =>
    ⟨name, descriptor, throws, code⟩⟩

instance : DecidablePred Pool.Storable := fun _ =>
  decidable_of_iff (_ ∧ _ ∧ _ ∧ _) ⟨fun ⟨strings, classes, fields, methods⟩ =>
    ⟨strings, classes, fields, methods⟩, fun ⟨strings, classes, fields, methods⟩ =>
    ⟨strings, classes, fields, methods⟩⟩

instance : DecidablePred ClassFile.Storable := fun _ =>
  decidable_of_iff (_ ∧ _ ∧ _ ∧ _ ∧ _ ∧ _)
    ⟨fun ⟨constants, name, superName, annotations, fields, methods⟩ =>
      ⟨constants, name, superName, annotations, fields, methods⟩,
    fun ⟨constants, name, superName, annotations, fields, methods⟩ =>
      ⟨constants, name, superName, annotations, fields, methods⟩⟩

/-! ### Parts of a class file -/

open Reader (Reads)

theorem Reader.reads_texts {entries : List String}
    (h : Wire.StorableTable Wire.StorableText entries) :
    Reads (table text) (Wire.table Wire.text entries) entries :=
  reads_table h.1 fun s hs => reads_text (h.2 s hs)

theorem Pool.reads_encode {p : Pool} (h : p.Storable) : Reads Pool.read p.encode p := by
  unfold Pool.encode
  rw [List.append_assoc, List.append_assoc]
  refine (Reader.reads_texts h.strings).bind ?_
  refine (Reader.reads_texts h.classes).bind ?_
  refine (Reader.reads_table h.fields.1 fun f hf => ?_).bind
    (Reader.reads_table h.methods.1 fun m hm => ?_).map
  · have hf := h.fields.2 f hf
    exact (Reader.reads_text hf.owner).bind (Reader.reads_text hf.name).map
  · have hm := h.methods.2 m hm
    rw [List.append_assoc]
    exact (Reader.reads_text hm.owner).bind
      ((Reader.reads_text hm.name).bind (Reader.reads_text hm.descriptor).map)

theorem FieldDef.reads_encode {f : FieldDef} (h : f.Storable) : Reads FieldDef.read f.encode f := by
  unfold FieldDef.encode
  rw [List.append_assoc]
  exact (Reader.reads_text h.name).bind
    ((Reader.reads_text h.descriptor).bind (Reader.reads_u16 f.access).map)

theorem MethodDef.reads_encode {m : MethodDef} (h : m.Storable) :
    Reads MethodDef.read m.encode m := by
  unfold MethodDef.encode
  simp only [List.append_assoc]
  refine (Reader.reads_text h.name).bind ?_
  refine (Reader.reads_text h.descriptor).bind ?_
  refine (Reader.reads_u16 m.access).bind ?_
  refine (Reader.reads_texts h.exceptions).bind ?_
  exact (Reader.reads_u16 m.maxLocals).bind (Reader.reads_blob h.code).map

namespace ClassFile

theorem reads_super {superName : Option String} (h : ∀ s ∈ superName, Wire.StorableText s) :
    Reads readSuper (encodeSuper superName) superName := by
  cases superName with
  | none =>
    have hread := (Reader.reads_u8 0).bind (f := fun present =>
      if present = 0 then pure none else return some (← Reader.text)) (Reader.reads_pure none)
    rwa [List.append_nil] at hread
  | some name => exact (Reader.reads_u8 1).bind (Reader.reads_text (h name rfl)).map

/-- What stands behind the header is read from what is written of it. -/
theorem reads_payload {c : ClassFile} (h : c.Storable) : Reads (readPayload c.flags) c.payload c := by
  unfold payload
  simp only [List.append_assoc]
  refine (Pool.reads_encode h.constants).bind ?_
  refine (Reader.reads_text h.name).bind ?_
  refine (reads_super h.superName).bind ?_
  refine (Reader.reads_u16 c.access).bind ?_
  refine (Reader.reads_texts h.annotations).bind ?_
  refine (Reader.reads_table h.fields.1 fun f hf => FieldDef.reads_encode (h.fields.2 f hf)).bind ?_
  exact (Reader.reads_table h.methods.1 fun m hm =>
    MethodDef.reads_encode (h.methods.2 m hm)).map

/-! ### The whole file -/

theorem readStep_eq_ok {α : Type} {read : Reader α} {bytes rest : Bytes} {a : α}
    (h : Reads read bytes a) (position : Nat) :
    readStep read ⟨position, bytes ++ rest⟩ = .ok (a, ⟨position + bytes.length, rest⟩) := by
  unfold readStep
  rw [h position rest]

/-- What follows a step of reading. -/
theorem readStep_bind {α β : Type} {read : Reader α} {bytes rest : Bytes} {a : α}
    (h : Reads read bytes a) (position : Nat) (f : α × Cursor → Except ClassFileError β) :
    (readStep read ⟨position, bytes ++ rest⟩ >>= f) =
      f (a, ⟨position + bytes.length, rest⟩) := by
  rw [readStep_eq_ok h]
  rfl

/-- **There and back.** -/
theorem decode_encode {c : ClassFile} (h : c.Storable) : decode c.encode = .ok c := by
  have hheader : c.encode = magic ++ (Wire.u32 version ++ (Wire.u32 c.flags ++
      (Wire.u32 (Crc32.checksum c.payload) ++ (c.payload ++ [])))) := by
    simp only [encode, List.append_assoc, List.append_nil]
  have hmagic : Reads (Reader.take 4) magic magic := Reader.reads_take rfl
  unfold decode
  rw [hheader, Cursor.start, readStep_bind hmagic]
  dsimp only
  rw [if_neg (not_not_intro rfl), readStep_bind (Reader.reads_u32 version)]
  dsimp only
  rw [if_neg (not_not_intro rfl), readStep_bind (Reader.reads_u32 c.flags)]
  dsimp only
  rw [readStep_bind (Reader.reads_u32 _)]
  dsimp only
  rw [List.append_nil, if_neg (not_not_intro rfl), ← List.append_nil c.payload,
    readStep_bind (reads_payload h)]
  rfl

end ClassFile

/-- **Class files.** What is written of a class file is read as that class file, and of no other is the
same written. -/
theorem decode_encode_of_storable {c : ClassFile} (h : c.Storable) :
    ClassFile.decode c.encode = .ok c ∧
      ∀ c' : ClassFile, c'.Storable → (c.encode = c'.encode ↔ c = c') := by
  refine ⟨ClassFile.decode_encode h, fun c' h' => ⟨fun heq => ?_, congrArg ClassFile.encode⟩⟩
  have hdecode : (.ok c : Except ClassFileError ClassFile) = .ok c' := calc
    .ok c = ClassFile.decode c.encode := (ClassFile.decode_encode h).symm
    _ = ClassFile.decode c'.encode := by rw [heq]
    _ = .ok c' := ClassFile.decode_encode h'
  exact Except.ok.inj hdecode

/-- A class file that makes little sense: an entry twice, names that are empty, a bit without a meaning,
a descriptor and a body that cannot be read. -/
def oddFile : ClassFile where
  flags := 7
  constants := { strings := ["é", "é", ""], methods := [⟨"t.A", "f", "?"⟩] }
  name := "t.Ω"
  superName := some ""
  access := 0x8000
  annotations := ["", ""]
  fields := [⟨"x", "?", 0xFFFF⟩]
  methods := [⟨"f", "?", 0, ["t.Failure"], 3, [0xFF]⟩, ⟨"f", "?", 0, ["t.Failure"], 3, [0xFF]⟩]

/-- It is read as it is, and without its flags it is another one. -/
theorem oddFile_decode : ClassFile.decode oddFile.encode = .ok oddFile ∧
    oddFile.encode ≠ { oddFile with flags := 0 }.encode := by
  have hodd : oddFile.Storable :=
    ⟨⟨by decide, by decide, by decide, by decide⟩, by decide, by decide, by decide, by decide,
      by decide⟩
  have hplain : { oddFile with flags := 0 }.Storable := { hodd with }
  obtain ⟨hdecode, heq⟩ := decode_encode_of_storable hodd
  exact ⟨hdecode, fun h => absurd ((heq _ hplain).1 h) (by decide)⟩

end Interpose
