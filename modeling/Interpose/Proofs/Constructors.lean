import Interpose.Proofs.Openings
import Interpose.Proofs.Verification
/-!
# The halves of a constructor, loaded

What stands under the name of an intercepted constructor is its opening and then a stub; what stands
under the name of its body is the rest. Both have been verified with the instrumented class, so both
have a body in the first place and are typed, and the constructor itself was neither native nor
abstract.

## Main definitions

* `ClassFile.openingOf`: the opening of a method, which is empty but for constructors
* `Machine.Constructs`: the halves of a constructor, as a class has them

## Main results

* `Machine.Intercepts.exists_constructor`
-/

namespace Interpose

/-- The opening of a method of a class file. Only constructors have one. -/
def ClassFile.openingOf (file : ClassFile) (d : MethodDef) : List Instruction :=
  if d.name = constructorName then
    match Code.decode d.code with
    | .error _ => []
    | .ok code =>
      match SuperCall.cut file.constants file.name file.superName code with
      | .error _ => []
      | .ok (opening, _) => opening
  else []

theorem ClassFile.openingOf_eq_nil {file : ClassFile} {d : MethodDef}
    (h : d.name ≠ constructorName) : file.openingOf d = [] := if_neg h

theorem ClassFile.openingOf_eq {file : ClassFile} {d : MethodDef} {code opening rest : List Instruction}
    (hinit : d.name = constructorName) (hcode : Code.decode d.code = .ok code)
    (hcut : SuperCall.cut file.constants file.name file.superName code = .ok (opening, rest)) :
    file.openingOf d = opening := by
  rw [openingOf, if_pos hinit, hcode]
  dsimp only
  rw [hcut]

namespace SuperCall

variable {pool : Pool} {code opening rest : List Instruction}

/-- The effects of the instructions of a method that passes are known. -/
theorem known_of_checkMethod {className : String} {d : MethodDef}
    (h : Verifier.checkMethod className pool d = .ok ()) (hcode : Code.decode d.code = .ok code) :
    Known pool code := by
  obtain ⟨signature, -, hbody⟩ := Verifier.checkMethod_eq_ok_iff.1 h
  split at hbody
  · rw [hbody, Code.decode_nil] at hcode
    cases hcode
    exact nofun
  · obtain ⟨-, -, code', hcode', hfound, -⟩ := hbody
    obtain rfl : code' = code := Except.ok.inj (hcode'.symm.trans hcode)
    exact fun i hi => Option.isSome_iff_exists.2 (hfound i hi).exists_effect

theorem Parts.mem_of_mem (h : Parts code opening rest) {i : Instruction} (hi : i ∈ opening) :
    i ∈ code := by
  obtain ⟨p, hp, rfl⟩ := List.getElem_of_mem hi
  exact List.mem_of_getElem? ((h.begins p hp).trans (List.getElem?_eq_getElem hp))

/-- The tags in an opening are those of primitive types. -/
theorem Parts.isSome_ofTag? (h : Parts code opening rest) {bytes : Bytes}
    (hcode : Code.decode bytes = .ok code) {tag : UInt8} (ht : .unbox tag ∈ opening) :
    (TypeDesc.ofTag? tag).isSome :=
  Code.isSome_ofTag?_of_decode hcode (h.mem_of_mem ht)

end SuperCall

namespace Instrument

variable {pool pool' : Pool} {className : String} {superName : Option String}
variable {d body entry : MethodDef}

theorem splitMethod_constructor (h : splitMethod pool className superName d =
    .ok (body, entry, pool')) (hinit : d.name = constructorName) :
    ∃ signature code opening rest entryCode, d.signature = .ok signature ∧
      Code.decode d.code = .ok code ∧
      SuperCall.cut pool className superName code = .ok (opening, rest) ∧
      Item.assemble pool (opening.map .emit ++ (constructorTarget className d signature).items) =
        .ok (entryCode, pool') ∧
      entry = ⟨constructorName, d.descriptor,
        Access.without d.access Modifier.visibility ||| Modifier.visible.bit, d.exceptions,
        max d.maxLocals (constructorTarget className d signature).locals, Code.encode entryCode⟩ ∧
      body = { d with name := constructorBodyName, code := Code.encode rest } := by
  unfold splitMethod at h
  rw [if_pos hinit] at h
  exact splitConstructor_eq_ok h

/-- The flags of what takes over a constructor's name, visibility apart. -/
theorem has_constructorAccess (access : Access) {f : Modifier}
    (hf : f = .native ∨ f = .abstract ∨ f = .static) :
    Access.has (Access.without access Modifier.visibility ||| Modifier.visible.bit) f =
      Access.has access f := by
  rcases hf with rfl | rfl | rfl <;>
    rw [Access.has_or (by decide), Access.has_without (by decide)]

/-- What takes over a constructor's name has a body. If it passes, it is neither native nor abstract,
so the constructor is neither. -/
theorem flags_of_constructorEntry {owner : String} {pool₀ : Pool} {signature : MethodDesc}
    {opening entryCode : List Instruction}
    (hassemble : Item.assemble pool
      (opening.map .emit ++ (constructorTarget className d signature).items) = .ok (entryCode, pool'))
    (hfits : pool'.Fits) (hcode : entry.code = Code.encode entryCode)
    (haccess : entry.access = Access.without d.access Modifier.visibility ||| Modifier.visible.bit)
    (hcheck : Verifier.checkMethod owner pool₀ entry = .ok ()) :
    d.isNative = false ∧ d.isAbstract = false := by
  have hne : entry.code ≠ [] :=
    hcode ▸ Code.encode_ne_nil (StubTarget.ne_nil_of_assemble _ hassemble hfits)
  obtain ⟨hn, ha⟩ := Verifier.flags_of_checkMethod hcheck hne
  rw [MethodDef.isNative, haccess, has_constructorAccess _ (.inl rfl)] at hn
  rw [MethodDef.isAbstract, haccess, has_constructorAccess _ (.inr (.inl rfl))] at ha
  exact ⟨hn, ha⟩

/-- A constructor whose arguments have room among its locals has room for those of its stub. -/
theorem max_locals_eq {signature : MethodDesc} (h : signature.arity + 1 ≤ d.maxLocals.toNat) :
    max d.maxLocals (constructorTarget className d signature).locals = d.maxLocals := by
  have hlt : d.maxLocals.toNat < 65536 := d.maxLocals.toNat_lt
  have hlocals : (constructorTarget className d signature).locals.toNat = signature.arity + 1 :=
    StubTarget.toNat_locals (show signature.arity + 1 ≤ 65535 by omega)
  have hle : (constructorTarget className d signature).locals ≤ d.maxLocals :=
    UInt16.le_iff_toNat_le.2 (hlocals ▸ h)
  show (if d.maxLocals ≤ (constructorTarget className d signature).locals then
    (constructorTarget className d signature).locals else d.maxLocals) = d.maxLocals
  split
  · exact UInt16.le_antisymm hle ‹_›
  · rfl

end Instrument

/-! ### Both halves -/

/-- The halves of a constructor of a class file, as a class has them: what stands under its name, `k`,
and what stands under the name of its body, `b`. -/
structure Machine.Constructs (m : Machine) (c : ClassRef) (file file' : ClassFile) (j : Nat)
    (d : MethodDef) (code rest : List Instruction) (k b : LoadedMethod) : Prop where
  signature : d.signature = .ok k.signature
  decode : Code.decode d.code = .ok code
  parts : SuperCall.Parts code (file.openingOf d) rest
  native : d.isNative = false
  abstract : d.isAbstract = false
  room : k.signature.arity + 1 ≤ d.maxLocals.toNat
  entry : (m.cls c).methods[file.methods.length + j]? = some k
  entryLocals : k.maxLocals = d.maxLocals
  entryTyped : ∃ depthAt, k.WellTyped file'.constants depthAt
  stub : (Instrument.constructorTarget file.name d k.signature).Entry file'.constants
    (file.openingOf d) k
  body : (m.cls c).methods[j]? = some b
  bodyTyped : ∃ depthAt, b.WellTyped file'.constants depthAt
  bodyDefined : LoadedMethod.define file.name
    { d with name := constructorBodyName, code := Code.encode rest } = .ok b

/-- The halves of a constructor stay what they are. -/
theorem Machine.Constructs.of_extends {m m' : Machine} {c : ClassRef} {file file' : ClassFile}
    {j : Nat} {d : MethodDef} {code rest : List Instruction} {k b : LoadedMethod}
    (hk : m.Constructs c file file' j d code rest k b) (hc : m.classes.Has c) (hm : m.Extends m') :
    m'.Constructs c file file' j d code rest k b := by
  have hmethods : (m'.cls c).methods = (m.cls c).methods :=
    LoadedClass.methods_eq_of_fixed (hm.fixed_eq c hc)
  exact { hk with entry := hmethods ▸ hk.entry, body := hmethods ▸ hk.body }

namespace Machine.Intercepts

variable {m : Machine} {c : ClassRef} {file file' : ClassFile} {h : HandlerRef}
variable {j : Nat} {d : MethodDef}

/-- **Constructors.** -/
theorem exists_constructor (hc : m.Intercepts c file file' h) (hverify : file.verify = .ok ())
    (hverify' : file'.verify = .ok ()) (hd : file.methods[j]? = some d)
    (hinit : d.name = constructorName) (hstatic : d.isStatic = false) :
    ∃ code rest k b, m.Constructs c file file' j d code rest k b := by
  obtain ⟨bodies, entries, added, pool, hfile⟩ :=
    ClassFile.exists_instrumented_of_transform hc.transform
  obtain ⟨body, entry, p, p', hbody, hentry, hp, hp', hsplit⟩ := hfile.exists_halves hd
  obtain ⟨signature, code, opening, rest, entryCode, hsignature, hcode, hcut, hassemble, rfl, rfl⟩ :=
    Instrument.splitMethod_constructor hsplit hinit
  obtain ⟨k, hk, hdefine⟩ := hc.exists_method hentry
  obtain ⟨b, hb, hdefineBody⟩ := hc.exists_method hbody
  have hcheck := ClassFile.checkMethod_of_verify hverify (List.mem_of_getElem? hd)
  have hcheckEntry := ClassFile.checkMethod_of_verify hverify' (List.mem_of_getElem? hentry)
  have hcheckBody := ClassFile.checkMethod_of_verify hverify' (List.mem_of_getElem? hbody)
  obtain ⟨hn, ha⟩ := Instrument.flags_of_constructorEntry hassemble (hc.fits.of_extends hp') rfl rfl
    hcheckEntry
  obtain ⟨hk_signature, -, hk_access, hk_locals⟩ := LoadedMethod.of_define hdefine
  obtain ⟨-, -, hb_access, -⟩ := LoadedMethod.of_define hdefineBody
  obtain rfl : k.signature = signature := Except.ok.inj (hk_signature.symm.trans hsignature)
  have hflag : ∀ {f : Modifier}, f = .native ∨ f = .abstract ∨ f = .static →
      Access.has k.access f = Access.has d.access f := by
    intro f hf
    rw [hk_access]
    exact Instrument.has_constructorAccess d.access hf
  have hnative : k.isNative = false := (hflag (.inl rfl)).trans hn
  have habstract : k.isAbstract = false := (hflag (.inr (.inl rfl))).trans ha
  have hroom : k.signature.arity + 1 ≤ d.maxLocals.toNat := by
    obtain ⟨-, -, hroom, -, -⟩ :=
      Verifier.checkBody_eq_ok (Verifier.checkBody_of_checkMethod hcheck hsignature hn ha)
    rwa [hstatic] at hroom
  have hlt : d.maxLocals.toNat < 65536 := d.maxLocals.toNat_lt
  -- The pool in which it was cut has grown since the class file was verified.
  rw [SuperCall.cut_of_extends hp (SuperCall.known_of_checkMethod hcheck hcode)] at hcut
  obtain rfl : file.openingOf d = opening := ClassFile.openingOf_eq hinit hcode hcut
  have hparts : SuperCall.Parts code (file.openingOf d) rest := SuperCall.parts_of_cut hcut
  refine ⟨code, rest, k, b, ?_⟩
  exact {
    signature := hsignature
    decode := hcode
    parts := hparts
    native := hn
    abstract := ha
    room := hroom
    entry := hk
    entryLocals := hk_locals.trans (Instrument.max_locals_eq hroom)
    entryTyped := LoadedMethod.exists_wellTyped_of_define hcheckEntry hdefine hnative habstract
    stub := StubTarget.entry_of_assemble hassemble hp' hc.fits
      (show k.signature.arity ≤ 65535 by omega) (fun i hi => (hparts.passes i hi).target)
      (fun tag htag => hparts.isSome_ofTag? hcode htag) hdefine rfl rfl hnative habstract
      ((hflag (.inr (.inr rfl))).trans hstatic)
    body := hb
    bodyTyped := by
      refine LoadedMethod.exists_wellTyped_of_define hcheckBody hdefineBody ?_ ?_
      · rw [LoadedMethod.isNative, hb_access]
        exact hn
      · rw [LoadedMethod.isAbstract, hb_access]
        exact ha
    bodyDefined := hdefineBody }

end Machine.Intercepts

end Interpose
