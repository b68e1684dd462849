import Interpose.Proofs.Constructors
import Interpose.Proofs.VerifiedStubs
/-!
# The halves of a verified constructor

Where a constructor is cut, the search for the call has kept as many marks as verification has counted
values. So the stack holds nothing there but what the call leaves, and the rest, which begins with an
empty stack, passes as it did before if the call leaves nothing. Neither the search nor the cut asks
for that: behind a call with a result the rest may take a value that it does not have.

What takes over the constructor's name is the opening and a stub, with the flags of the constructor.
It has a body, so a constructor that was native or abstract is refused. A constructor that is not
static has room for its receiver among its locals, and so has the stub; one that is static may have as
many parameters as there are locals, which leaves no room for the receiver of the stub.

## Main definitions

* `SuperCall.LeavesNothing`: openings that end with a call without a result

## Main results

* `SuperCall.exists_depth_of_cut`: the depth at the cut
* `checkMethod_of_splitConstructor`: when the halves of a constructor pass
-/

namespace Interpose

open Verifier (Found Agrees checkMethod)
open Item (Flows)

/-! ### The depth at the cut -/

namespace SuperCall

variable {pool : Pool} {className superName : String} {place : Nat} {stack stack' : List Mark}
variable {code whole opening rest : List Instruction} {returnsVoid : Bool}
variable {depthAt : Nat → Option Nat} {maxLocals : UInt16}

/-- There are as many marks behind an instruction as its effect says. -/
theorem length_of_advance {i : Instruction} {effect : StackEffect}
    (h : advance pool place stack i = .ok stack') (heffect : i.stackEffect? pool = some effect) :
    stack'.length = stack.length - effect.pops + effect.pushes := by
  rcases advance_eq_ok h with ⟨rfl, rfl⟩ | ⟨a, rest, rfl, rfl, rfl⟩ | ⟨a, b, rest, rfl, rfl, rfl⟩ |
    ⟨effect', heffect', -, rfl⟩
  · cases heffect
    rfl
  · cases heffect
    rfl
  · cases heffect
    rfl
  · obtain rfl := Option.some.inj (heffect.symm.trans heffect')
    rw [List.length_append, List.length_replicate, List.length_drop, Nat.add_comm]

/-- The call takes all there is. -/
theorem length_of_checkCall {index : UInt32} {m : MethodRef} {effect : StackEffect}
    (h : checkCall place stack m = .ok ()) (hm : pool.method? index = some m)
    (heffect : Instruction.stackEffect? pool (.invoke .special index) = some effect) :
    stack.length = effect.pops := by
  unfold checkCall at h
  split at h
  · cases h
  rename_i signature hsignature
  simp only [Instruction.stackEffect?, hm, hsignature] at heffect
  cases heffect
  split at h
  · cases h
  split at h
  · cases h
  split at h
  · cases h
  · exact Decidable.not_not.1 ‹_›

/-- Behind the call stands what it pushes. The induction is on the instructions before it, along which
there are as many marks as values. -/
theorem exists_call_of_locateFrom {call : Nat}
    (h : locateFrom pool className superName place stack code = .ok call)
    (hagrees : Agrees pool returnsVoid whole depthAt)
    (hcode : ∀ q : Nat, whole[place + q]? = code[q]?) (hn : depthAt place = some stack.length) :
    ∃ i effect, whole[call]? = some i ∧ i.stackEffect? pool = some effect ∧
      depthAt (call + 1) = some effect.pushes := by
  induction code generalizing place stack with
  | nil => cases h
  | cons i rest ih =>
    obtain ⟨i', effect, hi', heffect, -, -, hnext⟩ := hagrees place _ hn
    obtain rfl : i' = i := Option.some.inj (hi'.symm.trans (hcode 0))
    obtain ⟨-, hends, hcases⟩ := locateFrom_cons_eq_ok h
    have hdepth : depthAt (place + 1) = some (stack.length - effect.pops + effect.pushes) := by
      refine hnext _ ?_
      rw [Verifier.successors, hends]
      exact List.mem_append_right _ List.mem_cons_self
    obtain ⟨index, m, rfl, hm, -, hcheck, rfl⟩ | ⟨-, stack', hadvance, hrest⟩ := hcases
    · refine ⟨_, effect, hi', heffect, ?_⟩
      rw [hdepth, length_of_checkCall hcheck hm heffect, Nat.sub_self, Nat.zero_add]
    · refine ih hrest (fun q => ?_) ?_
      · rw [Nat.add_assoc, Nat.add_comm 1]
        exact hcode (q + 1)
      · rw [hdepth, length_of_advance hadvance heffect]

/-- The instruction that an opening ends with, if there is one, leaves no value. -/
def LeavesNothing (pool : Pool) (opening : List Instruction) : Prop :=
  ∀ i, opening.getLast? = some i → ∀ effect, i.stackEffect? pool = some effect → effect.pushes = 0

theorem LeavesNothing.of_extends {pool' : Pool} (hp : pool.Extends pool')
    (hknown : Known pool opening) (h : LeavesNothing pool opening) : LeavesNothing pool' opening := by
  intro i hi effect heffect
  obtain ⟨effect', heffect'⟩ := Option.isSome_iff_exists.1 (hknown i (List.mem_of_getLast? hi))
  obtain rfl : effect' = effect := Option.some.inj ((hp.stackEffect? heffect').symm.trans heffect)
  exact h i hi effect' heffect'

/-- **Depths at the cut.** -/
theorem exists_depth_of_cut {superName : Option String}
    (h : cut pool className superName code = .ok (opening, rest)) (hstart : depthAt 0 = some 0)
    (hagrees : Agrees pool returnsVoid code depthAt) :
    ∃ n, depthAt opening.length = some n ∧ (LeavesNothing pool opening → n = 0) := by
  unfold cut at h
  split at h
  · cases h
    exact ⟨0, hstart, fun _ => rfl⟩
  · split at h
    · cases h
    rename_i call hcall
    obtain ⟨body, -, heq⟩ := Results.map_eq_ok h
    cases heq
    obtain ⟨i, effect, hi, heffect, hdepth⟩ := exists_call_of_locateFrom hcall hagrees
      (fun q => by rw [Nat.zero_add]) hstart
    have hlt : call < code.length := (List.getElem?_eq_some_iff.1 hi).1
    have hlength : (code.take (call + 1)).length = call + 1 := List.length_take_of_le hlt
    refine ⟨effect.pushes, by rw [hlength]; exact hdepth,
      fun hleaves => hleaves i ?_ effect heffect⟩
    rw [List.getLast?_eq_getElem?, hlength, Nat.add_sub_cancel,
      List.getElem?_take_of_lt (Nat.lt_succ_self call), hi]

/-! ### Both parts -/

/-- The rest of a body that passes does so on its own, if nothing stands on the stack at the cut. -/
theorem Parts.passes_rest (h : Parts code opening rest) (hfound : ∀ i ∈ code, Found pool maxLocals i)
    (hagrees : Agrees pool returnsVoid code depthAt) (hcut : depthAt opening.length = some 0) :
    Verifier.Passes pool maxLocals returnsVoid rest := by
  have hget : ∀ {p i}, rest[p]? = some i →
      code[opening.length + p]? = some (i.mapTarget (· + opening.length)) := by
    intro p i hi
    rw [h.ends, hi]
    rfl
  refine ⟨fun i hi => ?_, fun q => depthAt (opening.length + q), hcut, fun p n hn => ?_⟩
  · obtain ⟨p, hp⟩ := List.getElem?_of_mem hi
    exact Verifier.found_mapTarget.1 (hfound _ (List.mem_of_getElem? (hget hp)))
  · obtain ⟨j, effect, hj, heffect, hpops, hreturns, hnext⟩ := hagrees _ n hn
    rw [h.ends] at hj
    obtain ⟨i, hi, rfl⟩ := Option.map_eq_some_iff.1 hj
    rw [Verifier.stackEffect?_mapTarget] at heffect
    rw [Verifier.returnMismatch_mapTarget] at hreturns
    exact ⟨i, effect, hi, heffect, hpops, hreturns,
      fun q hq => hnext _ (Verifier.mem_successors_mapTarget hq)⟩

/-- The opening goes from an empty stack to what stands at the cut. -/
theorem flows_opening {base p n n' : Nat} (hfound : ∀ i ∈ code, Found pool maxLocals i)
    (hagrees : Agrees pool returnsVoid code depthAt) (hn : depthAt p = some n)
    (hcode : ∀ q : Nat, q < opening.length → code[p + q]? = opening[q]?)
    (hpasses : ∀ i ∈ opening, Passes i) (hcut : depthAt (p + opening.length) = some n') :
    Flows pool maxLocals returnsVoid base (some n) (opening.map .emit) (some n') := by
  induction opening generalizing p n with
  | nil =>
    obtain rfl : n = n' := Option.some.inj (hn.symm.trans hcut)
    exact .nil _
  | cons i opening ih =>
    obtain ⟨i', effect, hi', heffect, hpops, -, hnext⟩ := hagrees p n hn
    obtain rfl : i' = i := Option.some.inj (hi'.symm.trans (hcode 0 (Nat.succ_pos _)))
    have hi := hpasses i' List.mem_cons_self
    have hsucc : p + 1 ∈ Verifier.successors p i' := by
      rw [Verifier.successors, hi.onward]
      exact List.mem_append_right _ List.mem_cons_self
    rw [List.length_cons, ← Nat.add_assoc, Nat.add_right_comm] at hcut
    have hrest := ih (hnext _ hsucc)
      (fun q hq => by
        rw [Nat.add_assoc, Nat.add_comm 1]
        exact hcode (q + 1) (Nat.succ_lt_succ hq))
      (fun j hj => hpasses j (List.mem_cons_of_mem i' hj)) hcut
    rw [← Nat.sub_add_cancel hpops]
    exact .move ⟨rfl, hfound i' (List.mem_of_getElem? hi'), heffect, hi.target, hi.onward⟩ hrest

end SuperCall

/-! ### Halves -/

/-- The arguments of a direct call are among the items of a stub that makes one. -/
theorem StubTarget.mem_items_of_mem_pushArguments {t : StubTarget} (h : t.alwaysDispatch = false)
    {item : Item} (hitem : item ∈ t.pushArguments) : item ∈ t.items := by
  rw [items_eq, directPart, h, directBlock_eq]
  simp [hitem]

namespace Instrument

open SuperCall (Parts LeavesNothing)

variable {pool pool' : Pool} {className : String} {superName : Option String} {d : MethodDef}
variable {signature : MethodDesc} {code opening rest entryCode : List Instruction}

/-- The body of a constructor, in a frame of its own. -/
theorem checkMethod_constructorBody (hcheck : checkMethod className pool d = .ok ())
    (hcode : Code.decode d.code = .ok code)
    (hcut : SuperCall.cut pool className superName code = .ok (opening, rest))
    (hleaves : LeavesNothing pool opening) (name : String) :
    checkMethod className pool { d with name := name, code := Code.encode rest } = .ok () := by
  obtain ⟨signature, hsignature, hbody⟩ := Verifier.checkMethod_eq_ok_iff.1 hcheck
  have hparts := SuperCall.parts_of_cut hcut
  by_cases hflags : (d.isNative || d.isAbstract) = true
  · rw [if_pos hflags] at hbody
    rw [hbody, Code.decode_nil] at hcode
    cases hcode
    obtain rfl : rest = [] := List.map_eq_nil_iff.1 (List.append_eq_nil_iff.1 hparts.eq_append.symm).2
    refine Verifier.checkMethod_eq_ok_iff.2 ⟨signature, hsignature, ?_⟩
    exact if_pos hflags ▸ rfl
  · rw [if_neg hflags] at hbody
    obtain ⟨-, hroom, code', hcode', hfound, depthAt, hstart, hagrees⟩ := hbody
    obtain rfl : code' = code := Except.ok.inj (hcode'.symm.trans hcode)
    obtain ⟨n, hdepth, hn⟩ := SuperCall.exists_depth_of_cut hcut hstart hagrees
    rw [hn hleaves] at hdepth
    rw [Bool.not_eq_true, Bool.or_eq_false_iff] at hflags
    exact Verifier.checkMethod_of_passes hsignature hflags.1 hflags.2 hroom rfl
      (hparts.decode_rest hcode) (hparts.passes_rest hfound hagrees hdepth)

/-- What takes over the name of a constructor. -/
def constructorEntry (className : String) (d : MethodDef) (signature : MethodDesc)
    (entryCode : List Instruction) : MethodDef :=
  ⟨constructorName, d.descriptor,
    Access.without d.access Modifier.visibility ||| Modifier.visible.bit, d.exceptions,
    max d.maxLocals (constructorTarget className d signature).locals, Code.encode entryCode⟩

theorem isNative_constructorEntry :
    (constructorEntry className d signature entryCode).isNative = d.isNative :=
  has_constructorAccess d.access (.inl rfl)

theorem isAbstract_constructorEntry :
    (constructorEntry className d signature entryCode).isAbstract = d.isAbstract :=
  has_constructorAccess d.access (.inr (.inl rfl))

theorem isStatic_constructorEntry :
    (constructorEntry className d signature entryCode).isStatic = d.isStatic :=
  has_constructorAccess d.access (.inr (.inr rfl))

theorem le_max_locals (a b : UInt16) : a ≤ max a b ∧ b ≤ max a b := by
  show a ≤ (if a ≤ b then b else a) ∧ b ≤ (if a ≤ b then b else a)
  split
  · exact ⟨‹_›, UInt16.le_refl b⟩
  · exact ⟨UInt16.le_refl a, UInt16.le_of_lt (UInt16.not_le.1 ‹_›)⟩

/-- The stub has room for its arguments, and for the receiver, if there are not too many. -/
theorem room_constructorEntry (harity : signature.arity < 65535) :
    (constructorTarget className d signature).signature.arity +
        (!(constructorTarget className d signature).isStatic).toNat ≤
      (constructorEntry className d signature entryCode).maxLocals.toNat := by
  have hlocals : (constructorTarget className d signature).locals.toNat = signature.arity + 1 :=
    StubTarget.toNat_locals (show signature.arity + 1 ≤ 65535 from harity)
  have hle : (constructorTarget className d signature).locals ≤
      max d.maxLocals (constructorTarget className d signature).locals := (le_max_locals _ _).2
  exact hlocals ▸ UInt16.le_iff_toNat_le.1 hle

/-- What stands under a constructor's name is read back as it was assembled. -/
theorem decode_constructorEntry (hcode : Code.decode d.code = .ok code)
    (hparts : Parts code opening rest)
    (hassemble : Item.assemble pool (opening.map .emit ++
      (constructorTarget className d signature).items) = .ok (entryCode, pool'))
    (hfits : pool'.Fits) (harity : signature.arity ≤ 65535) :
    Code.decode (Code.encode entryCode) = .ok entryCode :=
  (StubTarget.exists_laid_of_assemble _ hassemble hfits harity
    (fun i hi => (hparts.passes i hi).target) fun _ => hparts.isSome_ofTag? hcode).1

/-- A constructor with a body has an entry that passes, if its stub has room. -/
theorem checkMethod_constructorEntry (hcheck : checkMethod className pool d = .ok ())
    (hsignature : d.signature = .ok signature) (hn : d.isNative = false) (ha : d.isAbstract = false)
    (hcode : Code.decode d.code = .ok code)
    (hcut : SuperCall.cut pool className superName code = .ok (opening, rest))
    (hassemble : Item.assemble pool (opening.map .emit ++
      (constructorTarget className d signature).items) = .ok (entryCode, pool'))
    (hfits : pool'.Fits) (harity : signature.arity < 65535) :
    checkMethod className pool' (constructorEntry className d signature entryCode) = .ok () := by
  obtain ⟨signature', hsignature', hbody⟩ := Verifier.checkMethod_eq_ok_iff.1 hcheck
  obtain rfl : signature' = signature := Except.ok.inj (hsignature'.symm.trans hsignature)
  rw [hn, ha, Bool.false_or, if_neg Bool.false_ne_true] at hbody
  obtain ⟨-, hroom, code', hcode', hfound, depthAt, hstart, hagrees⟩ := hbody
  obtain rfl : code' = code := Except.ok.inj (hcode'.symm.trans hcode)
  have hparts := SuperCall.parts_of_cut hcut
  obtain ⟨n, hdepth, -⟩ := SuperCall.exists_depth_of_cut hcut hstart hagrees
  let entry := constructorEntry className d signature' entryCode
  have hmax : d.maxLocals ≤ entry.maxLocals := (le_max_locals _ _).1
  have hdecode := decode_constructorEntry hcode hparts hassemble hfits (Nat.le_of_lt harity)
  have hopening : Flows pool entry.maxLocals signature'.ret.isVoid n (some 0) (opening.map .emit)
      (some n) := by
    refine SuperCall.flows_opening (fun i hi => (hfound i hi).mono (.refl pool) hmax) hagrees hstart
      (fun q hq => ?_) hparts.passes ?_
    · rw [Nat.zero_add]
      exact hparts.begins q hq
    · rw [Nat.zero_add]
      exact hdepth
  have hstub : Flows pool entry.maxLocals signature'.ret.isVoid n (some n)
      (constructorTarget className d signature').items none :=
    StubTarget.flows_items (room_constructorEntry harity) hsignature
  refine Verifier.checkMethod_of_assemble n hassemble hfits
    (StubTarget.marks_opening _ ▸ StubTarget.nodup_marks_items _) hsignature
    (isNative_constructorEntry.trans hn) (isAbstract_constructorEntry.trans ha) ?_ rfl hdecode
    (hopening.append hstub)
  rw [isStatic_constructorEntry]
  exact Nat.le_trans hroom (UInt16.le_iff_toNat_le.1 hmax)

/-- The argument of a stub that stands in the last slot of all has no room among its locals. -/
theorem arity_lt_of_checkMethod
    (hassemble : Item.assemble pool (opening.map .emit ++
      (constructorTarget className d signature).items) = .ok (entryCode, pool'))
    (hfits : pool'.Fits) (hdecode : Code.decode (Code.encode entryCode) = .ok entryCode)
    (hflags : (d.isNative || d.isAbstract) = false)
    (h : checkMethod className pool' (constructorEntry className d signature entryCode) = .ok ()) :
    signature.arity < 65535 := by
  obtain ⟨signature', -, hbody⟩ := Verifier.checkMethod_eq_ok_iff.1 h
  rw [isNative_constructorEntry, isAbstract_constructorEntry, hflags,
    if_neg Bool.false_ne_true] at hbody
  obtain ⟨-, -, code', hcode', hfound, -⟩ := hbody
  obtain rfl : code' = entryCode := Except.ok.inj (hcode'.symm.trans hdecode)
  refine Nat.lt_of_not_le fun harity => ?_
  obtain ⟨last, hlast⟩ : ∃ last, last + 1 = 65535 := ⟨65534, by omega⟩
  let t := constructorTarget className d signature
  have hargument : Item.loadLocal (t.argumentSlot last) ∈ t.items :=
    StubTarget.mem_items_of_mem_pushArguments rfl
      (List.mem_map.2 ⟨last, List.mem_range.2 (by rw [← hlast] at harity; exact harity), rfl⟩)
  obtain ⟨place, hlaid, -⟩ := Item.laid_of_assemble hassemble hfits
    (StubTarget.marks_opening _ ▸ StubTarget.nodup_marks_items _)
  obtain ⟨q, hq⟩ := Item.exists_stands_of_mem hlaid (List.mem_append_right _ hargument)
  have hslot : t.argumentSlot last < (constructorEntry className d signature code').maxLocals :=
    hfound _ (List.mem_of_getElem? hq)
  have hvalue : (t.argumentSlot last).toNat = 1 + last :=
    StubTarget.toNat_argumentSlot (show 1 + last ≤ 65535 by omega)
  have hmax := (constructorEntry className d signature code').maxLocals.toNat_lt
  have hlt := UInt16.lt_iff_toNat_lt.1 hslot
  omega

end Instrument

/-- **Verified constructors.** Of a constructor of a verified class that has been split, the body
passes if the call behind which it was cut leaves nothing, and what takes over its name passes exactly
if the constructor is neither native nor abstract and its stub has room for receiver and arguments.
Other methods may have been split before, so that the pool need not be that of the class any more. -/
theorem checkMethod_of_splitConstructor {file : ClassFile} (hverify : file.verify = .ok ())
    {d : MethodDef} (hd : d ∈ file.methods) (hinit : d.name = constructorName) {pool pool' : Pool}
    (hgrows : file.constants.Extends pool) {body entry : MethodDef}
    (h : Instrument.splitConstructor pool file.name file.superName d = .ok (body, entry, pool'))
    (hfits : pool'.Fits) :
    (SuperCall.LeavesNothing file.constants (file.openingOf d) →
      checkMethod file.name pool' body = .ok ()) ∧
    (checkMethod file.name pool' entry = .ok () ↔ d.isNative = false ∧ d.isAbstract = false ∧
      ∀ signature, d.signature = .ok signature → signature.arity < 65535) := by
  obtain ⟨signature, code, opening, rest, entryCode, hsignature, hcode, hcut, hassemble, rfl, rfl⟩ :=
    Instrument.splitConstructor_eq_ok h
  have hcheck := ClassFile.checkMethod_of_verify hverify hd
  have hcheck' : checkMethod file.name pool d = .ok () := Verifier.checkMethod_of_grown hgrows hcheck
  have hparts := SuperCall.parts_of_cut hcut
  have hknown := SuperCall.known_of_checkMethod hcheck hcode
  refine ⟨fun hleaves => ?_, fun hentry => ?_, fun ⟨hn, ha, harity⟩ => ?_⟩
  · have hcut' := SuperCall.cut_of_extends hgrows hknown file.superName ▸ hcut
    rw [ClassFile.openingOf_eq hinit hcode hcut'] at hleaves
    have hleaves' := hleaves.of_extends hgrows fun i hi => hknown i (hparts.mem_of_mem hi)
    exact Verifier.checkMethod_of_grown (Item.extends_of_assemble hassemble)
      (Instrument.checkMethod_constructorBody hcheck' hcode hcut hleaves' constructorBodyName)
  · obtain ⟨hnative, habstract⟩ := Verifier.flags_of_checkMethod hentry
      (Code.encode_ne_nil (StubTarget.ne_nil_of_assemble _ hassemble hfits))
    have hn : d.isNative = false := Instrument.isNative_constructorEntry.symm.trans hnative
    have ha : d.isAbstract = false := Instrument.isAbstract_constructorEntry.symm.trans habstract
    have hflags : (d.isNative || d.isAbstract) = false := by rw [hn, ha, Bool.false_or]
    have hmax : d.maxLocals.toNat < 65536 := d.maxLocals.toNat_lt
    have hroom : signature.arity + (!d.isStatic).toNat ≤ d.maxLocals.toNat :=
      ((Verifier.checkBody_eq_ok_iff _).1 (Verifier.checkBody_of_checkMethod hcheck hsignature hn ha)).1
    have hdecode := Instrument.decode_constructorEntry hcode hparts hassemble hfits (by omega)
    refine ⟨hn, ha, fun signature' hsignature' => ?_⟩
    obtain rfl : signature' = signature := Except.ok.inj (hsignature'.symm.trans hsignature)
    exact Instrument.arity_lt_of_checkMethod hassemble hfits hdecode hflags hentry
  · exact Instrument.checkMethod_constructorEntry hcheck' hsignature hn ha hcode hcut hassemble hfits
      (harity signature hsignature)

/-! ### Leaves and stones -/

/-- A class file with one constructor, which calls a constructor of the superclass. -/
def leafFile (descriptor : String) (rest : List Instruction) : ClassFile where
  name := "t.Leaf"
  superName := some "t.Tree"
  constants := { methods := [⟨"t.Tree", constructorName, descriptor⟩] }
  methods := [⟨constructorName, "()V", Modifier.visible.bit, [], 1,
    Code.encode (.loadLocal 0 :: .invoke .special 0 :: rest)⟩]

/-- A class file with one constructor, which is native. -/
def stoneFile : ClassFile where
  name := "t.Stone"
  methods := [⟨constructorName, "()V", Modifier.native.bit, [], 0, []⟩]

/-- The halves of the first method of a class file, split as a constructor, and the pool after that. -/
def firstHalves (file : ClassFile) : MethodDef × MethodDef × Pool :=
  (Instrument.splitConstructor file.constants file.name file.superName
    (file.methods.getD 0 default)).toOption.getD default

/-- Both halves of the constructor of a leaf pass, if that of a tree has no result. -/
theorem leafFile_split_checked : ∃ body entry pool,
    Instrument.splitConstructor (leafFile "()V" [.simple .retVoid]).constants "t.Leaf"
      (some "t.Tree") (leafFile "()V" [.simple .retVoid]).methods[0] = .ok (body, entry, pool) ∧
    checkMethod "t.Leaf" pool body = .ok () ∧ checkMethod "t.Leaf" pool entry = .ok () := by
  let file := leafFile "()V" [.simple .retVoid]
  let d := file.methods[0]
  have hverify : file.verify = .ok () := by decide +kernel
  have hsplit : Instrument.splitConstructor file.constants file.name file.superName d =
      .ok (firstHalves file) := by decide +kernel
  have hfits : (firstHalves file).2.2.Fits := by decide +kernel
  have hopening : file.openingOf d = [.loadLocal 0, .invoke .special 0] := by decide +kernel
  have heffect : Instruction.stackEffect? file.constants (.invoke .special 0) = some ⟨1, 0⟩ := by
    decide +kernel
  have hleaves : SuperCall.LeavesNothing file.constants (file.openingOf d) := by
    rw [hopening]
    intro i hi effect h
    cases hi
    cases heffect.symm.trans h
    rfl
  have hsignature : d.signature = .ok ⟨[], .void⟩ := by decide +kernel
  have harity : ∀ signature, d.signature = .ok signature → signature.arity < 65535 := by
    intro signature h
    rw [hsignature] at h
    cases h
    decide
  obtain ⟨hbody, hentry⟩ := checkMethod_of_splitConstructor hverify (List.getElem_mem _)
    (by decide +kernel) (.refl _) hsplit hfits
  exact ⟨_, _, _, hsplit, hbody hleaves,
    hentry.2 ⟨by decide +kernel, by decide +kernel, harity⟩⟩

/-- The entry of a native constructor is refused, and so is the body of a constructor that takes the
result of the call behind which it is cut. -/
theorem split_halves_refused :
    (stoneFile.verify = .ok () ∧ ∃ body entry pool,
      Instrument.splitConstructor stoneFile.constants "t.Stone" none stoneFile.methods[0] =
        .ok (body, entry, pool) ∧
      checkMethod "t.Stone" pool entry = .error (.unexpectedCode "t.Stone.<init>()V")) ∧
    (leafFile "()I" [.simple .pop, .simple .retVoid]).verify = .ok () ∧ ∃ body entry pool,
      Instrument.splitConstructor (leafFile "()I" [.simple .pop, .simple .retVoid]).constants
        "t.Leaf" (some "t.Tree") (leafFile "()I" [.simple .pop, .simple .retVoid]).methods[0] =
          .ok (body, entry, pool) ∧
      checkMethod "t.Leaf" pool body =
        .error (.stackUnderflow "t.Leaf.__constructor__()V" 0) := by
  let leaf := leafFile "()I" [.simple .pop, .simple .retVoid]
  have hstone : Instrument.splitConstructor stoneFile.constants "t.Stone" none stoneFile.methods[0] =
      .ok (firstHalves stoneFile) := by decide +kernel
  have hleaf : Instrument.splitConstructor leaf.constants "t.Leaf" (some "t.Tree") leaf.methods[0] =
      .ok (firstHalves leaf) := by decide +kernel
  exact ⟨⟨by decide +kernel, _, _, _, hstone, by decide +kernel⟩,
    by decide +kernel, _, _, _, hleaf, by decide +kernel⟩

end Interpose
