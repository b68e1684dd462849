import Interpose.Proofs.Codec
import Interpose.Proofs.DirectCalls
/-!
# The shape of instrumented classes

An instrumented class file has each declared method twice: what was declared, under another name, and
what took over its name. Beyond that it has a constructor without parameters if there was none. No two
of all these methods have one name and descriptor, though three ways to make up names meet in them;
nothing else of the class is lost, and the pool has only grown, so that what was declared still means
what it meant.

## Main definitions

* `ClassFile.HasOnce`: a class file has a method, and no other of its name and descriptor
* `ClassFile.Doubles`: the shape of an instrumented class file

## Main results

* `ClassFile.Instrumented.eq_of_same`: no two methods have one name and descriptor
* `doubles_of_transform`
-/

namespace Interpose

open Instrument (bodyName hasDefaultConstructor)

namespace ClassFile

variable {file file' : ClassFile} {bodies entries added : List MethodDef} {pool : Pool}

/-- A class file has a method, once, and none else of its name and descriptor. -/
def HasOnce (file : ClassFile) (e : MethodDef) : Prop :=
  ∃ i : Nat, file.methods[i]? = some e ∧ ∀ (j : Nat) e', file.methods[j]? = some e' →
    e'.name = e.name → e'.descriptor = e.descriptor → j = i

theorem distinct_of_getElem? (h : ∀ (i j : Nat) d e, file.methods[i]? = some d →
    file.methods[j]? = some e → d.name = e.name → d.descriptor = e.descriptor → i = j) :
    file.Distinct := by
  refine List.pairwise_iff_getElem.2 fun i j hi hj hij heq => ?_
  rw [List.length_map] at hi hj
  rw [List.getElem_map, List.getElem_map] at heq
  obtain ⟨hname, hdescriptor⟩ := Prod.mk.inj heq
  exact absurd (h i j _ _ (List.getElem?_eq_getElem hi) (List.getElem?_eq_getElem hj) hname
    hdescriptor) (Nat.ne_of_lt hij)

theorem Distinct.hasOnce (h : file.Distinct) {i : Nat} {e : MethodDef}
    (he : file.methods[i]? = some e) : file.HasOnce e :=
  ⟨i, he, fun _ _ he' hname hdescriptor => h.eq_of_getElem? he' he hname hdescriptor⟩

/-- The shape of an instrumented class file. -/
structure Doubles (file file' : ClassFile) : Prop where
  distinct : file'.Distinct
  /-- What was declared is there once, under another name. -/
  renamed : ∀ d ∈ file.methods, ∃ e, file'.HasOnce e ∧ e.name = bodyName file.name d.name ∧
    e.descriptor = d.descriptor ∧ e.access = d.access ∧ e.exceptions = d.exceptions ∧
    e.maxLocals = d.maxLocals ∧
    ((d.name = constructorName → file.superName = none) → e.code = d.code)
  /-- What took over its name is there once. -/
  generated : ∀ d ∈ file.methods, d.name ≠ staticInitializerName → ∃ e, file'.HasOnce e ∧
    e.name = d.name ∧ e.descriptor = d.descriptor ∧ e.exceptions = d.exceptions
  /-- A static initializer is there if there was one. -/
  initializer : (∃ d ∈ file.methods, d.name = staticInitializerName) →
    ∃ e, file'.HasOnce e ∧ e.name = staticInitializerName ∧ e.descriptor = "()V"
  /-- A constructor without parameters is there in any case. -/
  constructor : ∃ e, file'.HasOnce e ∧ e.name = constructorName ∧ e.descriptor = "()V"
  /-- It counts as a method of its own if there was none. -/
  length : file'.methods.length =
    2 * file.methods.length + (!hasDefaultConstructor file).toNat
  /-- There is nothing else. -/
  others : ∀ e ∈ file'.methods,
    (∃ d ∈ file.methods, e.name = bodyName file.name d.name ∧ e.descriptor = d.descriptor) ∨
    (∃ d ∈ file.methods, d.name ≠ staticInitializerName ∧ e.name = d.name ∧
      e.descriptor = d.descriptor) ∨
    (e.name = staticInitializerName ∧ e.descriptor = "()V" ∧
      ∃ d ∈ file.methods, d.name = staticInitializerName) ∨
    (e.name = constructorName ∧ e.descriptor = "()V" ∧ hasDefaultConstructor file = false)
  name : file'.name = file.name
  superName : file'.superName = file.superName
  flags : file'.flags = file.flags
  access : file'.access = file.access
  annotations : file'.annotations = file.annotations
  /-- The fields are there, and the marker behind them unless it is one of them. -/
  fields : file'.fields = file.fields ++ if (file.field? markerFieldName).isSome then [] else
    [⟨markerFieldName, markerFieldDescriptor, Modifier.visible.bit⟩]
  /-- The tables of the pool begin as they did. -/
  constants : file.constants.Extends file'.constants
  /-- What an index led to, it leads to still. -/
  entries : ∀ i : UInt32,
    (∀ s, file.constants.string? i = some s → file'.constants.string? i = some s) ∧
    (∀ s, file.constants.class? i = some s → file'.constants.class? i = some s) ∧
    (∀ f, file.constants.field? i = some f → file'.constants.field? i = some f) ∧
    (∀ f, file.constants.method? i = some f → file'.constants.method? i = some f)

/-- No two methods of an instrumented class file have one name and descriptor. -/
theorem Instrumented.eq_of_same (h : file.Instrumented file' bodies entries added pool)
    (hnames : ∀ d ∈ file.methods, ¬IsBodyName d.name) (hdistinct : file.Distinct)
    (honce : ∀ (i j : Nat) d e, file.methods[i]? = some d → file.methods[j]? = some e →
      d.name = staticInitializerName → e.name = staticInitializerName → i = j)
    {i j : Nat} {e e' : MethodDef} (he : file'.methods[i]? = some e)
    (he' : file'.methods[j]? = some e') (hname : e.name = e'.name)
    (hdescriptor : e.descriptor = e'.descriptor) : i = j := by
  cases h.part he with
  | body hd hbody hsame =>
    exact (h.eq_of_bodyName hnames hdistinct hd he' (hname.symm.trans hbody)
      (hdescriptor.symm.trans hsame)).symm
  | @entry q d hplace hd hentry hsame =>
    by_cases hclinit : d.name = staticInitializerName
    · -- The other is a static initializer as well, and there is but one.
      have hname' : e'.name = staticInitializerName := hname.symm.trans (hentry.trans hclinit)
      cases h.part he' with
      | body _ hbody =>
        have hmade : IsBodyName e'.name := hbody ▸ Instrument.isBodyName_bodyName _ _
        rw [hname'] at hmade
        exact absurd hmade (by decide)
      | entry hplace' hd' hentry' =>
        rw [hplace, hplace', honce _ _ _ _ hd hd' hclinit (hentry'.symm.trans hname')]
      | added _ hinit => exact absurd (hname'.symm.trans hinit) (by decide)
    · rw [hplace, h.eq_of_entryName hnames hdistinct hd hclinit he' (hname.symm.trans hentry)
        (hdescriptor.symm.trans (hsame hclinit))]
  | added hplace hinit hparameters hlacks =>
    cases h.part he' with
    | body _ hbody =>
      have hmade : IsBodyName e'.name := hbody ▸ Instrument.isBodyName_bodyName _ _
      rw [← hname, hinit] at hmade
      exact absurd hmade (by decide)
    | @entry q d _ hd' hentry' hsame' =>
      have hname' : d.name = constructorName := hentry'.symm.trans (hname.symm.trans hinit)
      have hclinit : d.name ≠ staticInitializerName := hname' ▸ by decide
      exact absurd ((hsame' hclinit).symm.trans (hdescriptor.symm.trans hparameters))
        (Instrument.descriptor_ne_of_hasDefaultConstructor hlacks (List.mem_of_getElem? hd') hname')
    | added hplace' => rw [hplace, hplace']

end ClassFile

/-- The code of a renamed half is what it was, but for constructors that were cut. -/
theorem Instrument.code_of_splitMethod {pool pool' : Pool} {className : String}
    {superName : Option String} {d body entry : MethodDef}
    (h : splitMethod pool className superName d = .ok (body, entry, pool'))
    (hroot : d.name = constructorName → superName = none) : body.code = d.code := by
  unfold splitMethod at h
  split at h
  · obtain ⟨signature, code, opening, rest, entryCode, -, hcode, hcut, -, -, rfl⟩ :=
      splitConstructor_eq_ok h
    rw [hroot ‹_›] at hcut
    cases hcut
    exact Code.encode_of_decode hcode
  · split at h <;> obtain ⟨⟨stub, p⟩, -, h⟩ := Results.bind_eq_ok h <;> cases h <;> rfl

section Transform

variable {file file' : ClassFile}

/-- What was declared, and what took over its name, in the instrumented class file. -/
theorem ClassFile.Instrumented.exists_pair {bodies entries added : List MethodDef} {pool : Pool}
    (h : file.Instrumented file' bodies entries added pool) {d : MethodDef} (hd : d ∈ file.methods) :
    ∃ j body entry, file'.methods[j]? = some body ∧
      file'.methods[file.methods.length + j]? = some entry ∧
      (∃ p p', Instrument.Halves file.name p d body entry p') ∧
      ((d.name = constructorName → file.superName = none) → body.code = d.code) := by
  obtain ⟨j, hj⟩ := List.getElem?_of_mem hd
  obtain ⟨body, entry, p, p', hbody, hentry, -, -, hsplit⟩ := h.exists_halves hj
  exact ⟨j, body, entry, hbody, hentry, ⟨p, p', Instrument.halves_of_splitMethod hsplit⟩,
    Instrument.code_of_splitMethod hsplit⟩

/-- There are twice as many methods, and one more if a constructor was added. -/
theorem ClassFile.Instrumented.length_methods {bodies entries added : List MethodDef} {pool : Pool}
    (h : file.Instrumented file' bodies entries added pool) : file'.methods.length =
      2 * file.methods.length + (!hasDefaultConstructor file).toNat := by
  obtain ⟨hbodies, hentries, -, -⟩ := Instrument.splitMethods_eq_ok h.split
  rw [h.methods, List.length_append, List.length_append, hbodies, hentries, h.adds.1, Nat.two_mul]

/-- A constructor without parameters is there, declared or added. -/
theorem ClassFile.Instrumented.exists_constructor {bodies entries added : List MethodDef}
    {pool : Pool} (h : file.Instrumented file' bodies entries added pool) :
    ∃ (i : Nat) (e : MethodDef), file'.methods[i]? = some e ∧ e.name = constructorName ∧
      e.descriptor = "()V" := by
  cases hdefault : hasDefaultConstructor file with
  | true =>
    obtain ⟨d, hd, htest⟩ := List.any_eq_true.1 hdefault
    rw [Bool.and_eq_true, beq_iff_eq, beq_iff_eq] at htest
    obtain ⟨j, body, entry, -, hentry, ⟨p, p', hhalves⟩, -⟩ := h.exists_pair hd
    have hclinit : d.name ≠ staticInitializerName := htest.1 ▸ by decide
    exact ⟨_, entry, hentry, hhalves.entryName.trans htest.1,
      (hhalves.entryDescriptor hclinit).trans htest.2⟩
  | false =>
    obtain ⟨hlength, hadded⟩ := h.adds
    rw [hdefault] at hlength
    obtain ⟨d, rfl⟩ := List.length_eq_one_iff.1 hlength
    have hd : d ∈ file'.methods := by
      rw [h.methods]
      exact List.mem_append_right _ (List.mem_singleton_self d)
    obtain ⟨i, hi⟩ := List.getElem?_of_mem hd
    exact ⟨i, d, hi, hadded d (List.mem_singleton_self d)⟩

/-- **The shape of an instrumented class.** -/
theorem doubles_of_transform (h : file.transform = .ok file') (hdistinct : file.Distinct)
    (hnames : ∀ d ∈ file.methods, ¬IsBodyName d.name)
    (honce : ∀ (i j : Nat) d e, file.methods[i]? = some d → file.methods[j]? = some e →
      d.name = staticInitializerName → e.name = staticInitializerName → i = j) :
    file.Doubles file' := by
  obtain ⟨bodies, entries, added, pool, hfile⟩ := ClassFile.exists_instrumented_of_transform h
  have hdistinct' : file'.Distinct := ClassFile.distinct_of_getElem? fun i j e e' he he' =>
    hfile.eq_of_same hnames hdistinct honce he he'
  have hgrows : file.constants.Extends file'.constants :=
    (Instrument.splitMethods_eq_ok hfile.split).2.2.1.trans hfile.grows
  exact {
    distinct := hdistinct'
    renamed := fun d hd => by
      obtain ⟨j, body, entry, hbody, -, ⟨p, p', hhalves⟩, hcode⟩ := hfile.exists_pair hd
      exact ⟨body, hdistinct'.hasOnce hbody, hhalves.bodyName, hhalves.bodyDescriptor,
        hhalves.bodyAccess, hhalves.bodyExceptions, hhalves.bodyLocals, hcode⟩
    generated := fun d hd hclinit => by
      obtain ⟨j, body, entry, -, hentry, ⟨p, p', hhalves⟩, -⟩ := hfile.exists_pair hd
      exact ⟨entry, hdistinct'.hasOnce hentry, hhalves.entryName, hhalves.entryDescriptor hclinit,
        hhalves.entryExceptions hclinit⟩
    initializer := fun ⟨d, hd, hclinit⟩ => by
      obtain ⟨j, body, entry, -, hentry, ⟨p, p', hhalves⟩, -⟩ := hfile.exists_pair hd
      exact ⟨entry, hdistinct'.hasOnce hentry, hhalves.entryName.trans hclinit,
        hhalves.initializerDescriptor hclinit⟩
    constructor := by
      obtain ⟨i, e, he, hname, hdescriptor⟩ := hfile.exists_constructor
      exact ⟨e, hdistinct'.hasOnce he, hname, hdescriptor⟩
    length := hfile.length_methods
    others := fun e he => by
      obtain ⟨i, hi⟩ := List.getElem?_of_mem he
      cases hfile.part hi with
      | body hd hname hdescriptor =>
        exact .inl ⟨_, List.mem_of_getElem? hd, hname, hdescriptor⟩
      | @entry j d _ hd hname hdescriptor hinitializer =>
        have hmem : d ∈ file.methods := List.mem_of_getElem? hd
        by_cases hclinit : d.name = staticInitializerName
        · exact .inr (.inr (.inl ⟨hname.trans hclinit, hinitializer hclinit, d, hmem, hclinit⟩))
        · exact .inr (.inl ⟨d, hmem, hclinit, hname, hdescriptor hclinit⟩)
      | added _ hname hdescriptor hlacks =>
        exact .inr (.inr (.inr ⟨hname, hdescriptor, hlacks⟩))
    name := hfile.name
    superName := by rw [hfile.eq]
    flags := by rw [hfile.eq]
    access := by rw [hfile.eq]
    annotations := by rw [hfile.eq]
    fields := by
      rw [hfile.fields, Instrument.withMarker]
      split
      · exact (List.append_nil _).symm
      · rfl
    constants := hgrows
    entries := fun i => ⟨fun _ => hgrows.string?, fun _ => hgrows.class?, fun _ => hgrows.field?,
      fun _ => hgrows.method?⟩ }

end Transform

/-- The class that echoes keeps its shape: its method, a stub and a constructor. -/
theorem echoFile_doubles : echoFile.Doubles interceptedEchoFile := by
  refine doubles_of_transform echoMachine_intercepts.transform echoFile_distinct
    echoFile_unclaimed.names fun i j d e hd he hname _ => ?_
  rw [List.mem_singleton.1 (List.mem_of_getElem? hd)] at hname
  exact absurd hname (by decide)

end Interpose
