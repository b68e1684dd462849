import Interpose.Proofs.DirectCalls
import Interpose.Proofs.StubDepths
/-!
# What instrumentation generates is verified

A method of a verified class that is renamed keeps its body, and its pool only grows, so there is
nothing to check again. What takes over its name is new in every respect: its flags, its locals, its
operands and its depths. The number of its locals has sixteen bits, so the receiver and the
parameters have to be so many at most.

Constructors, which are cut in two, have a module of their own.

## Main results

* `Verifier.checkMethod_of_assemble`: generated methods
* `checkMethod_of_transform`: both halves of a method, and the constructor that is added
-/

namespace Interpose

open Item (Flows)

/-! ### Programs without jumps -/

/-- A program that neither jumps nor unboxes is read back as it is. -/
theorem Item.decode_of_assemble {pool pool' : Pool} {items : List Item} {code : List Instruction}
    (h : assemble pool items = .ok (code, pool')) (hfits : pool'.Fits) (hmarks : (marks items).Nodup)
    (hjumps : ∀ c label, jump c label ∉ items) (htags : ∀ tag, emit (.unbox tag) ∉ items) :
    Code.decode (Code.encode code) = .ok code := by
  obtain ⟨place, hlaid, hlen⟩ := laid_of_assemble h hfits hmarks
  have hlt : ∀ {q : Nat} {i : Instruction}, code[q]? = some i → q < 0 + span items := by
    intro q i hq
    rw [Nat.zero_add, ← hlen]
    exact (List.getElem?_eq_some_iff.1 hq).1
  refine Code.decode_encode (Code.writable_of_near (by decide : 9 * 0 + 5 < 0x80000000) ?_ ?_)
  · intro q c label hq
    obtain ⟨l, hl, -⟩ := exists_jump_of_laid hlaid (Nat.zero_le q) (hlt hq) hq
    exact absurd hl (hjumps c l)
  · intro tag htag
    obtain ⟨q, hq⟩ := List.getElem?_of_mem htag
    exact absurd (mem_unbox_of_laid hlaid (Nat.zero_le q) (hlt hq) hq) (htags tag)

/-! ### Generated methods -/

namespace Verifier

variable {pool pool' : Pool} {className : String} {m : MethodDef} {signature : MethodDesc}
variable {items : List Item} {code : List Instruction}

/-- A body that passes holds something. -/
theorem Passes.ne_nil {maxLocals : UInt16} {returnsVoid : Bool}
    (h : Passes pool maxLocals returnsVoid code) : code ≠ [] := by
  obtain ⟨-, depthAt, hstart, hagrees⟩ := h
  obtain ⟨i, -, hi, -⟩ := hagrees 0 0 hstart
  rintro rfl
  exact nomatch hi

/-- A method with a body that has been written passes if the body does. -/
theorem checkMethod_of_passes (hsignature : m.signature = .ok signature) (hn : m.isNative = false)
    (ha : m.isAbstract = false) (hroom : signature.arity + (!m.isStatic).toNat ≤ m.maxLocals.toNat)
    (hcode : m.code = Code.encode code) (hdecode : Code.decode (Code.encode code) = .ok code)
    (hpasses : Passes pool m.maxLocals signature.ret.isVoid code) :
    checkMethod className pool m = .ok () := by
  refine checkMethod_eq_ok_iff.2 ⟨signature, hsignature, ?_⟩
  rw [hn, ha, Bool.false_or, if_neg Bool.false_ne_true, hcode]
  exact ⟨Code.encode_ne_nil hpasses.ne_nil, hroom, code, hdecode, hpasses⟩

/-- **Generated methods.** A method that is assembled passes if its items end. -/
theorem checkMethod_of_assemble (base : Nat) (hassemble : Item.assemble pool items = .ok (code, pool'))
    (hfits : pool'.Fits) (hmarks : (Item.marks items).Nodup)
    (hsignature : m.signature = .ok signature) (hn : m.isNative = false) (ha : m.isAbstract = false)
    (hroom : signature.arity + (!m.isStatic).toNat ≤ m.maxLocals.toNat)
    (hcode : m.code = Code.encode code) (hdecode : Code.decode (Code.encode code) = .ok code)
    (hflows : Flows pool m.maxLocals signature.ret.isVoid base (some 0) items none) :
    checkMethod className pool' m = .ok () :=
  checkMethod_of_passes hsignature hn ha hroom hcode hdecode
    (hflows.passes_of_assemble hassemble hfits hmarks)

/-- A method that passes goes on passing when the pool grows. -/
theorem checkMethod_of_grown {className' : String} (hp : pool.Extends pool')
    (h : checkMethod className pool m = .ok ()) : checkMethod className' pool' m = .ok () :=
  checkMethod_of_extends m.name hp h

end Verifier

namespace Instrument

open Verifier (checkMethod)

variable {pool pool' : Pool} {className : String} {superName : Option String}
variable {d e body entry : MethodDef}

/-- The stub of an ordinary method. -/
theorem checkMethod_of_entryMethod (h : entryMethod pool className d = .ok (entry, pool'))
    (hfits : pool'.Fits) (hroom : ∀ signature, d.signature = .ok signature →
      signature.arity + (!d.isStatic).toNat ≤ 65535) :
    checkMethod className pool' entry = .ok () := by
  obtain ⟨signature, code, hsignature, hcode, rfl⟩ := entryMethod_eq_ok h
  have hroom' := hroom signature hsignature
  have harity : signature.arity ≤ 65535 := Nat.le_trans (Nat.le_add_right _ _) hroom'
  have hstatic : Access.has (Access.without d.access (Modifier.native.bit ||| Modifier.abstract.bit))
      .static = d.isStatic := Access.has_without (by decide)
  have hlocals := StubTarget.toNat_locals (t := entryTarget className d signature) hroom'
  have hopening : Item.assemble pool (([] : List Instruction).map .emit ++
      (entryTarget className d signature).items) = .ok (code, pool') := hcode
  obtain ⟨hdecode, -, -⟩ := StubTarget.exists_laid_of_assemble _ hopening hfits harity nofun nofun
  refine Verifier.checkMethod_of_assemble 0 hcode hfits (StubTarget.nodup_marks_items _) hsignature
    (Access.has_without_eq_false (by decide)) (Access.has_without_eq_false (by decide)) ?_ rfl hdecode
    (StubTarget.flows_items (Nat.le_of_eq hlocals.symm) hsignature)
  rw [MethodDef.isStatic, hstatic]
  exact Nat.le_of_eq hlocals.symm

/-- What takes over the name of the static initializer. -/
theorem checkMethod_of_initializerStub (h : initializerStub pool className = .ok (entry, pool'))
    (hfits : pool'.Fits) : checkMethod className pool' entry = .ok () := by
  obtain ⟨⟨code, p⟩, hcode, h⟩ := Results.bind_eq_ok h
  cases h
  have hassemble := assemble_eq_ok hcode
  have hdecode : Code.decode (Code.encode code) = .ok code :=
    Item.decode_of_assemble hassemble hfits List.nodup_nil
      (by simp [Item.jump, Item.simple]) (by simp [Item.emit, Item.simple])
  have hsignature : MethodDesc.parse "()V" = .ok ⟨[], .void⟩ := by decide +kernel
  have hn : Access.has Modifier.static.bit .native = false := by decide
  have ha : Access.has Modifier.static.bit .abstract = false := by decide
  have hroom : 0 + (!Access.has Modifier.static.bit .static).toNat ≤ (0 : UInt16).toNat := by decide
  exact Verifier.checkMethod_of_assemble 0 hassemble hfits List.nodup_nil hsignature hn ha
    hroom rfl hdecode (.move (n := 0) (Item.moves_constClass _)
      (.move (n := 0) (Item.moves_simple .classInitializing rfl) .retVoid))

/-- The constructor without parameters. -/
theorem checkMethod_of_defaultConstructor (className : String)
    (h : defaultConstructor pool superName = .ok (e, pool')) (hfits : pool'.Fits) :
    checkMethod className pool' e = .ok () := by
  obtain ⟨⟨code, p⟩, hcode, h⟩ := Results.bind_eq_ok h
  cases h
  have hassemble := assemble_eq_ok hcode
  have hsignature : MethodDesc.parse "()V" = .ok ⟨[], .void⟩ := by decide +kernel
  have hmarks : Item.marks (ClassDraft.defaultConstructorBody superName) = [] := by
    cases superName <;> rfl
  have hnodup : (Item.marks (ClassDraft.defaultConstructorBody superName)).Nodup :=
    hmarks ▸ List.nodup_nil
  have hdecode : Code.decode (Code.encode code) = .ok code := by
    refine Item.decode_of_assemble hassemble hfits hnodup ?_ ?_ <;>
      cases superName <;>
      simp [ClassDraft.defaultConstructorBody, Item.jump, Item.emit, Item.simple, Item.loadLocal]
  have hn : Access.has Modifier.visible.bit .native = false := by decide
  have ha : Access.has Modifier.visible.bit .abstract = false := by decide
  have hroom : 0 + (!Access.has Modifier.visible.bit .static).toNat ≤ (1 : UInt16).toNat := by decide
  have hslot : (0 : UInt16) < 1 := by decide
  refine Verifier.checkMethod_of_assemble 0 hassemble hfits hnodup hsignature hn ha hroom
    rfl hdecode ?_
  cases superName with
  | none => exact .retVoid
  | some super =>
    exact .move (n := 0) (Item.moves_loadLocal hslot)
      (.move (n := 0) (Item.moves_invoke hsignature) .retVoid)

/-- **Methods.** Both halves of a method that is no constructor pass. -/
theorem checkMethod_of_splitMethod (h : splitMethod pool className superName d =
      .ok (body, entry, pool')) (hfits : pool'.Fits) (hinit : d.name ≠ constructorName)
    (hcheck : checkMethod className pool d = .ok ())
    (hroom : ∀ signature, d.signature = .ok signature →
      signature.arity + (!d.isStatic).toNat ≤ 65535) :
    body = { d with name := bodyName className d.name } ∧
      checkMethod className pool' body = .ok () ∧ checkMethod className pool' entry = .ok () := by
  have hgrows := (halves_of_splitMethod h).grows
  have hbody := (halves_of_splitMethod h).bodyName
  unfold splitMethod at h
  rw [if_neg hinit] at h
  split at h
  · obtain ⟨⟨stub, p⟩, hstub, h⟩ := Results.bind_eq_ok h
    cases h
    exact ⟨hbody ▸ rfl, Verifier.checkMethod_of_extends _ hgrows hcheck,
      checkMethod_of_initializerStub hstub hfits⟩
  · obtain ⟨⟨stub, p⟩, hstub, h⟩ := Results.bind_eq_ok h
    cases h
    exact ⟨hbody ▸ rfl, Verifier.checkMethod_of_extends _ hgrows hcheck,
      checkMethod_of_entryMethod hstub hfits hroom⟩

end Instrument

/-! ### Instrumented classes -/

variable {file file' : ClassFile}

/-- The constructor that is added stands behind both halves of all methods. -/
theorem ClassFile.exists_defaultConstructor_of_transform (h : file.transform = .ok file')
    (hlacks : Instrument.hasDefaultConstructor file = false) :
    ∃ pool e, Instrument.defaultConstructor pool file.superName = .ok (e, file'.constants) ∧
      file'.methods[2 * file.methods.length]? = some e := by
  unfold ClassFile.transform at h
  obtain ⟨⟨bodies, entries, pool⟩, hsplit, h⟩ := Results.bind_eq_ok h
  obtain ⟨⟨added, pool'⟩, hadded, h⟩ := Results.bind_eq_ok h
  cases h
  unfold Instrument.addedConstructor at hadded
  rw [hlacks, if_neg Bool.false_ne_true] at hadded
  obtain ⟨⟨e, p⟩, he, hadded⟩ := Results.bind_eq_ok hadded
  cases hadded
  obtain ⟨hbodies, hentries, -, -⟩ := Instrument.splitMethods_eq_ok hsplit
  have hlen : (bodies ++ entries).length = 2 * file.methods.length := by
    rw [List.length_append, hbodies, hentries, Nat.two_mul]
  refine ⟨pool, e, he, ?_⟩
  rw [← hlen]
  exact List.getElem?_concat_length

/-- **Generated methods are verified.** Of a verified class that has been instrumented, both halves of
every method that is no constructor pass in the instrumented class file: the declared method under
its other name, and what has taken over its name. So does the constructor that is added where there
was none without parameters. Indices into the pool have 32 bits and wrap, so that all of this is
about pools whose tables a class file can store. -/
theorem checkMethod_of_transform (hverify : file.verify = .ok ())
    (h : file.transform = .ok file') (hfits : file'.constants.Fits) :
    (∀ (j : Nat) (d : MethodDef), file.methods[j]? = some d → d.name ≠ constructorName →
      (∀ signature, d.signature = .ok signature →
        signature.arity + (!d.isStatic).toNat ≤ 65535) →
      ∃ entry, file'.methods[j]? = some { d with name := Instrument.bodyName file.name d.name } ∧
        file'.methods[file.methods.length + j]? = some entry ∧ entry.name = d.name ∧
        Verifier.checkMethod file'.name file'.constants
          { d with name := Instrument.bodyName file.name d.name } = .ok () ∧
        Verifier.checkMethod file'.name file'.constants entry = .ok ()) ∧
    (Instrument.hasDefaultConstructor file = false →
      ∃ e, file'.methods[2 * file.methods.length]? = some e ∧ e.name = constructorName ∧
        e.descriptor = "()V" ∧ Verifier.checkMethod file'.name file'.constants e = .ok ()) := by
  obtain ⟨bodies, entries, added, pool, hfile⟩ := ClassFile.exists_instrumented_of_transform h
  rw [hfile.name]
  refine ⟨fun j d hd hinit hroom => ?_, fun hlacks => ?_⟩
  · obtain ⟨body, entry, p, p', hbody, hentry, hp, hp', hsplit⟩ := hfile.exists_halves hd
    have hcheck := ClassFile.checkMethod_of_verify hverify (List.mem_of_getElem? hd)
    obtain ⟨rfl, hbodyCheck, hentryCheck⟩ := Instrument.checkMethod_of_splitMethod hsplit
      (hfits.of_extends hp') hinit (Verifier.checkMethod_of_grown hp hcheck) hroom
    exact ⟨entry, hbody, hentry, (Instrument.halves_of_splitMethod hsplit).entryName,
      Verifier.checkMethod_of_grown hp' hbodyCheck, Verifier.checkMethod_of_grown hp' hentryCheck⟩
  · obtain ⟨p, e, he, hget⟩ := ClassFile.exists_defaultConstructor_of_transform h hlacks
    have hcheck := Instrument.checkMethod_of_defaultConstructor file.name he hfits
    obtain ⟨⟨code, p'⟩, -, he⟩ := Results.bind_eq_ok he
    cases he
    exact ⟨_, hget, rfl, rfl, hcheck⟩

/-- The halves of a method that echoes, and the constructor that its class has been given. -/
theorem echoFile_halves_checked :
    (∃ entry, interceptedEchoFile.methods[0]? =
        some { echoFile.methods[0] with name := Instrument.bodyName "t.Echo" "echo" } ∧
      interceptedEchoFile.methods[1]? = some entry ∧ entry.name = "echo" ∧
      Verifier.checkMethod interceptedEchoFile.name interceptedEchoFile.constants
        { echoFile.methods[0] with name := Instrument.bodyName "t.Echo" "echo" } = .ok () ∧
      Verifier.checkMethod interceptedEchoFile.name interceptedEchoFile.constants entry = .ok ()) ∧
    ∃ e, interceptedEchoFile.methods[2]? = some e ∧ e.name = constructorName ∧
      e.descriptor = "()V" ∧
      Verifier.checkMethod interceptedEchoFile.name interceptedEchoFile.constants e = .ok () := by
  have hroom : ∀ signature, echoFile.methods[0].signature = .ok signature →
      signature.arity + (!echoFile.methods[0].isStatic).toNat ≤ 65535 := by
    intro signature hs
    rw [echoFile_signature] at hs
    cases hs
    decide +kernel
  obtain ⟨hmethods, hadded⟩ := checkMethod_of_transform echoFile_verify.1
    echoMachine_intercepts.transform echoMachine_intercepts.fits
  exact ⟨hmethods 0 echoFile.methods[0] rfl (by decide +kernel) hroom, hadded (by decide +kernel)⟩

end Interpose
