import Interpose.Proofs.AssembledStubs
import Interpose.Proofs.VerifiedConstructors
/-!
# Classes of a default constructor

A class that declares nothing to call but the constructor that constructs its superclass and returns.
Such a class can be instrumented whatever its pool and its fields look like: the constructor is cut
behind its only call, the stub assembles, no constructor is added, and both halves are verified. A
verified class file can always be defined.

## Main definitions

* `ClassFile.OpensWith`: the instructions that construct the superclass, if there is one
* `ClassFile.OnlyConstructs`: the class files meant here

## Main results

* `LoadedClass.exists_define_of_verify`: definition does not fail on what has been verified
* `ClassFile.OnlyConstructs.exists_transform`, `ClassFile.OnlyConstructs.verify_of_transform`
-/

namespace Interpose

/-! ### Verified class files are defined -/

theorem Results.forM_of_forall {ε α : Type} {f : α → Except ε Unit} {l : List α}
    (h : ∀ a ∈ l, f a = .ok ()) : l.forM f = .ok () := by
  induction l with
  | nil => rfl
  | cons a l ih =>
    show (f a >>= fun _ => l.forM f) = _
    rw [h a List.mem_cons_self]
    exact ih fun b hb => h b (List.mem_cons_of_mem a hb)

theorem Verifier.exists_parse_of_checkField {className : String} {f : FieldDef}
    (h : Verifier.checkField className f = .ok ()) : ∃ t, TypeDesc.parse f.descriptor = .ok t := by
  unfold Verifier.checkField at h
  split at h
  · exact ⟨_, ‹_›⟩
  · cases h

theorem ClassFile.verify_eq_ok_iff {file : ClassFile} : file.verify = .ok () ↔
    (∀ f ∈ file.fields, Verifier.checkField file.name f = .ok ()) ∧
      ∀ d ∈ file.methods, Verifier.checkMethod file.name file.constants d = .ok () := by
  unfold ClassFile.verify
  constructor
  · intro h
    obtain ⟨⟨⟩, hfields, hmethods⟩ := Results.bind_eq_ok h
    exact ⟨Results.forM_eq_ok hfields, Results.forM_eq_ok hmethods⟩
  · rintro ⟨hfields, hmethods⟩
    rw [Results.forM_of_forall hfields]
    exact Results.forM_of_forall hmethods

/-- Fields whose types can be read are laid out. -/
theorem Layout.exists_addAll_of_parse {owner : String} {fields : List FieldDef} (layout : Layout)
    (h : ∀ f ∈ fields, ∃ t, TypeDesc.parse f.descriptor = .ok t) :
    ∃ layout', layout.addAll owner fields = .ok layout' := by
  induction fields generalizing layout with
  | nil => exact ⟨layout, rfl⟩
  | cons f rest ih =>
    obtain ⟨t, ht⟩ := h f List.mem_cons_self
    obtain ⟨layout', hlayout⟩ := ih (layout.add f.name f.isStatic t)
      fun f' hf' => h f' (List.mem_cons_of_mem f hf')
    exact ⟨layout', by rw [addAll, ht]; exact hlayout⟩

/-- A method that has been checked is prepared. -/
theorem LoadedMethod.exists_define_of_checkMethod {className : String} {pool : Pool} {d : MethodDef}
    (owner : String) (h : Verifier.checkMethod className pool d = .ok ()) :
    ∃ k, LoadedMethod.define owner d = .ok k := by
  obtain ⟨signature, hsignature, hrest⟩ := Verifier.checkMethod_eq_ok_iff.1 h
  obtain ⟨code, hcode⟩ : ∃ code, Code.decode d.code = .ok code := by
    split at hrest
    · exact ⟨[], hrest ▸ Code.decode_nil⟩
    · exact ⟨_, hrest.2.2.choose_spec.1⟩
  rw [MethodDef.signature] at hsignature
  exact ⟨_, by simp only [LoadedMethod.define, hsignature, hcode]; rfl⟩

/-- **Definition.** A verified class file can be defined, by any loader and below any class. -/
theorem LoadedClass.exists_define_of_verify {file : ClassFile} (h : file.verify = .ok ())
    (definer : Definer) (superclass? : Option (ClassRef × LoadedClass)) :
    ∃ k, LoadedClass.define definer superclass? file = .ok k := by
  obtain ⟨hfields, hmethods⟩ := ClassFile.verify_eq_ok_iff.1 h
  obtain ⟨methods, hm⟩ := Results.exists_mapM_eq_ok fun d hd =>
    LoadedMethod.exists_define_of_checkMethod file.name (hmethods d hd)
  obtain ⟨layout, hl⟩ : ∃ layout, Layout.addAll file.name
      { fieldDefaults := inheritedSlots superclass? } file.fields = .ok layout :=
    Layout.exists_addAll_of_parse _ fun f hf => Verifier.exists_parse_of_checkField (hfields f hf)
  exact exists_define_of_parts hm hl

/-! ### The class files -/

/-- The code that constructs the superclass of a class, if it has one. -/
def ClassFile.OpensWith (file : ClassFile) (opening : List Instruction) : Prop :=
  match file.superName with
  | none => opening = []
  | some super => ∃ index, file.constants.method? index = some ⟨super, constructorName, "()V"⟩ ∧
      opening = [.loadLocal 0, .invoke .special index]

/-- The only method is the constructor without parameters, which constructs the superclass and
returns. A field may take the marker's place, but it has to belong to the instances. -/
structure ClassFile.OnlyConstructs (file : ClassFile) (d : MethodDef) : Prop where
  methods : file.methods = [d]
  name : d.name = constructorName
  descriptor : d.descriptor = "()V"
  static : d.isStatic = false
  code : ∃ opening, file.OpensWith opening ∧
    Code.decode d.code = .ok (opening ++ [.simple .retVoid])
  marker : ∀ f ∈ file.fields, f.name = markerFieldName → f.isStatic = false

theorem parse_noParams : MethodDesc.parse "()V" = .ok ⟨[], .void⟩ := by decide +kernel

/-- The call that constructs the superclass is found where it stands. -/
theorem SuperCall.locateFrom_of_constructs {pool : Pool} {className superName : String} {place : Nat}
    {stack : List Mark} {index : UInt32} {m : MethodRef} {rest : List Instruction}
    (hm : pool.method? index = some m) (hconstructs : constructs className superName m = true)
    (hcheck : checkCall place stack m = .ok ()) :
    locateFrom pool className superName place stack (.invoke .special index :: rest) = .ok place := by
  unfold locateFrom
  simp only [hm, if_pos hconstructs, hcheck]
  rfl

/-- A constructor that can be cut can be split. -/
theorem Instrument.exists_splitConstructor {pool : Pool} {className : String}
    {superName : Option String} {d : MethodDef} {signature : MethodDesc}
    {code opening rest : List Instruction} (hsignature : d.signature = .ok signature)
    (hcode : Code.decode d.code = .ok code)
    (hcut : SuperCall.cut pool className superName code = .ok (opening, rest)) :
    ∃ body entry pool', splitConstructor pool className superName d = .ok (body, entry, pool') := by
  obtain ⟨entryCode, pool', hassemble⟩ :=
    (constructorTarget className d signature).exists_assemble pool
      fun i hi => ((SuperCall.parts_of_cut hcut).passes i hi).target
  refine ⟨{ d with name := constructorBodyName, code := Code.encode rest },
    constructorEntry className d signature entryCode, pool', ?_⟩
  simp only [splitConstructor, signatureOf, hsignature, hcode, hcut, Instrument.assemble, hassemble,
    bind, Except.bind, pure, Except.pure]
  rfl

namespace ClassFile.OpensWith

variable {file : ClassFile} {opening : List Instruction}

/-- The cut leaves nothing behind it but the return. -/
theorem cut_eq (h : file.OpensWith opening) :
    SuperCall.cut file.constants file.name file.superName (opening ++ [.simple .retVoid]) =
      .ok (opening, [.simple .retVoid]) := by
  unfold OpensWith at h
  split at h
  · next hsuper =>
    subst h
    rw [hsuper]
    rfl
  · next super hsuper =>
    obtain ⟨index, hindex, rfl⟩ := h
    have hcall : SuperCall.checkCall 1 [.receiver] ⟨super, constructorName, "()V"⟩ = .ok () := by
      simp only [SuperCall.checkCall, parse_noParams]
      rfl
    have hconstructs : SuperCall.constructs file.name super ⟨super, constructorName, "()V"⟩ =
        true := by
      rw [SuperCall.constructs, beq_self_eq_true, beq_self_eq_true]
      rfl
    have hlocate : SuperCall.locate file.constants file.name super
        [.loadLocal 0, .invoke .special index, .simple .retVoid] = .ok 1 := by
      show SuperCall.locateFrom _ _ _ 1 [.receiver] [.invoke .special index, .simple .retVoid] = _
      exact SuperCall.locateFrom_of_constructs hindex hconstructs hcall
    rw [hsuper]
    simp only [SuperCall.cut, hlocate, List.cons_append, List.nil_append]
    rfl

/-- What the opening ends with leaves nothing on the stack. -/
theorem leavesNothing (h : file.OpensWith opening) :
    SuperCall.LeavesNothing file.constants opening := by
  unfold OpensWith at h
  split at h
  · subst h
    rintro i ⟨⟩
  · obtain ⟨index, hindex, rfl⟩ := h
    intro i hi effect heffect
    obtain rfl : .invoke .special index = i := Option.some.inj hi
    simp only [Instruction.stackEffect?, hindex, parse_noParams] at heffect
    cases heffect
    rfl

end ClassFile.OpensWith

namespace ClassFile.OnlyConstructs

variable {file file' : ClassFile} {d : MethodDef}

theorem signature (h : file.OnlyConstructs d) : d.signature = .ok ⟨[], .void⟩ := by
  rw [MethodDef.signature, h.descriptor, parse_noParams]

theorem openingOf (h : file.OnlyConstructs d) : file.OpensWith (file.openingOf d) := by
  obtain ⟨opening, hopening, hcode⟩ := h.code
  rw [openingOf_eq h.name hcode hopening.cut_eq]
  exact hopening

theorem hasDefaultConstructor (h : file.OnlyConstructs d) :
    Instrument.hasDefaultConstructor file = true := by
  rw [Instrument.hasDefaultConstructor, h.methods, List.any_cons, h.name, h.descriptor]
  rfl

/-- **Instrumenting.** The class can be instrumented. -/
theorem exists_transform (h : file.OnlyConstructs d) : ∃ file', file.transform = .ok file' := by
  obtain ⟨opening, hopening, hcode⟩ := h.code
  obtain ⟨body, entry, pool, hsplit⟩ :=
    Instrument.exists_splitConstructor h.signature hcode hopening.cut_eq
  refine ⟨{ file with
    constants := pool
    fields := Instrument.withMarker file
    methods := [body, entry] }, ?_⟩
  simp only [transform, h.methods, Instrument.splitMethods, Instrument.splitMethod, if_pos h.name,
    hsplit, Instrument.addedConstructor, h.hasDefaultConstructor, if_true, bind, Except.bind, pure,
    Except.pure]
  rfl

/-- What is left of the class when it has been instrumented: the two halves of the constructor. -/
theorem methods_of_transform (h : file.OnlyConstructs d) (ht : file.transform = .ok file') :
    ∃ body entry pool, file'.methods = [body, entry] ∧ pool.Extends file'.constants ∧
      Instrument.splitConstructor file.constants file.name file.superName d =
        .ok (body, entry, pool) := by
  obtain ⟨bodies, entries, added, pool, hi⟩ := exists_instrumented_of_transform ht
  have hsplit := hi.split
  rw [h.methods, Instrument.splitMethods] at hsplit
  obtain ⟨⟨body, entry, pool'⟩, hbody, hsplit⟩ := Results.bind_eq_ok hsplit
  cases hsplit
  rw [Instrument.splitMethod, if_pos h.name] at hbody
  have hadded : added = [] := by
    rw [← List.length_eq_zero_iff, hi.adds.1, h.hasDefaultConstructor]
    rfl
  exact ⟨body, entry, pool, hadded ▸ hi.methods, hi.grows, hbody⟩

/-- The constructor has a body. -/
theorem flags (h : file.OnlyConstructs d) (hverify : file.verify = .ok ()) :
    d.isNative = false ∧ d.isAbstract = false := by
  obtain ⟨opening, -, hcode⟩ := h.code
  refine Verifier.flags_of_checkMethod
    ((verify_eq_ok_iff.1 hverify).2 d (h.methods ▸ List.mem_singleton_self d)) fun hempty => ?_
  rw [hempty, Code.decode_nil] at hcode
  exact List.append_ne_nil_of_right_ne_nil opening (List.cons_ne_nil _ _) (Except.ok.inj hcode).symm

/-- **Verification.** What has been verified stays so when it is instrumented. -/
theorem verify_of_transform (h : file.OnlyConstructs d) (hverify : file.verify = .ok ())
    (ht : file.transform = .ok file') (hfits : file'.constants.Fits) : file'.verify = .ok () := by
  obtain ⟨hfields, hmethods⟩ := verify_eq_ok_iff.1 hverify
  obtain ⟨_, _, _, _, hi⟩ := exists_instrumented_of_transform ht
  obtain ⟨body, entry, pool, hhalves, hgrows, hsplit⟩ := h.methods_of_transform ht
  obtain ⟨signature, code, opening, rest, entryCode, hsignature, hcode, hcut, hassemble, rfl, rfl⟩ :=
    Instrument.splitConstructor_eq_ok hsplit
  obtain rfl : signature = ⟨[], .void⟩ := Except.ok.inj (hsignature.symm.trans h.signature)
  have hcheck := hmethods d (h.methods ▸ List.mem_singleton_self d)
  obtain ⟨hn, ha⟩ := h.flags hverify
  refine verify_eq_ok_iff.2 ⟨fun f hf => ?_, fun e he => ?_⟩
  · rw [hi.fields, Instrument.withMarker] at hf
    rw [hi.name]
    split at hf
    · exact hfields f hf
    rcases List.mem_append.1 hf with hf | hf
    · exact hfields f hf
    · rw [List.mem_singleton.1 hf, Verifier.checkField,
        show TypeDesc.parse markerFieldDescriptor = .ok .any by decide +kernel]
      rfl
  · rw [hhalves] at he
    rcases List.mem_cons.1 he with rfl | he
    · have hleaves : SuperCall.LeavesNothing file.constants opening := by
        rw [← openingOf_eq h.name hcode hcut]
        exact h.openingOf.leavesNothing
      exact Verifier.checkMethod_of_grown ((Item.extends_of_assemble hassemble).trans hgrows)
        (Instrument.checkMethod_constructorBody hcheck hcode hcut hleaves constructorBodyName)
    · rw [List.mem_singleton.1 he]
      exact Verifier.checkMethod_of_grown hgrows
        (Instrument.checkMethod_constructorEntry hcheck hsignature hn ha hcode hcut hassemble
          (hfits.of_extends hgrows) (by decide))

/-- **Markers.** An instrumented class has a marker among the fields of its instances. -/
theorem exists_marker_of_transform (h : file.OnlyConstructs d) (ht : file.transform = .ok file') :
    ∃ f ∈ file'.fields, f.isStatic = false ∧ f.name = markerFieldName := by
  obtain ⟨_, _, _, _, hi⟩ := exists_instrumented_of_transform ht
  rw [hi.fields, Instrument.withMarker]
  split
  · next hsome =>
    obtain ⟨f, hf⟩ := Option.isSome_iff_exists.1 hsome
    have hname : f.name = markerFieldName := by simpa using List.find?_some hf
    exact ⟨f, List.mem_of_find?_eq_some hf, h.marker f (List.mem_of_find?_eq_some hf) hname, hname⟩
  · exact ⟨_, List.mem_append_right _ List.mem_cons_self, by decide, rfl⟩

end ClassFile.OnlyConstructs

end Interpose
