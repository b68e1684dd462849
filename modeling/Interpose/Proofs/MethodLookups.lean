import Interpose.Proofs.Definitions
import Interpose.Proofs.Records
import Interpose.Proofs.StandingLines
/-!
# Three ways to find a method

A class file is searched from the front for a name and descriptor. A class goes by an index that
declaration after declaration is put into, so of two with one key it knows the later. Call records,
which know no descriptor, are led to the first method whose name is right and whose parameter types
have the right names.

A name and descriptor that are declared once are what the three have in common: a class finds that
method, in its place, and so does whoever searches the class file. Records are led there unless an
earlier method reads the same, which one does that differs in the result type only.

## Main definitions

* `ClassFile.DeclaresOnce`: the only method of its name and descriptor
* `CallRecord.AsksFor`: what makes a record one of calls of a method, under the name that it has

## Main results

* `LoadedClass.declaredMethod?_eq_some_iff`: the later of two methods is found
* `ClassFile.method?_eq_some_iff`: and in the class file the earlier
* `CallRecord.directMethod?_eq_some_iff`: where records lead
* `lookups_agree_where_declared_once`: how the three go together
-/

namespace Interpose

variable {file : ClassFile} {definer : Definer} {superclass? : Option (ClassRef × LoadedClass)}
variable {k : LoadedClass} {name descriptor : String} {i : Nat} {d e : MethodDef}

/-! ### By name and descriptor -/

/-- A class file declares a method at a place, and no other of its name and descriptor. -/
structure ClassFile.DeclaresOnce (file : ClassFile) (i : Nat) (d : MethodDef) : Prop where
  declared : file.methods[i]? = some d
  only : ∀ (j : Nat) e, file.methods[j]? = some e → e.name = d.name →
    e.descriptor = d.descriptor → j = i

theorem ClassFile.DeclaresOnce.declares (h : file.DeclaresOnce i d) : file.Declares i d :=
  ⟨h.declared, fun j e he hname hdescriptor => Nat.le_of_eq (h.only j e he hname hdescriptor)⟩

/-- A method that fits a name and descriptor. -/
theorem MethodDef.fits_iff :
    (d.name == name && d.descriptor == descriptor) = true ↔
      d.name = name ∧ d.descriptor = descriptor := by
  rw [Bool.and_eq_true, beq_iff_eq, beq_iff_eq]

/-- In a class file the first method of a name and descriptor is found. -/
theorem ClassFile.method?_eq_some_iff :
    file.method? name descriptor = some d ↔ (d.name = name ∧ d.descriptor = descriptor) ∧
      ∃ i : Nat, file.methods[i]? = some d ∧ ∀ (j : Nat) e, j < i → file.methods[j]? = some e →
        ¬(e.name = name ∧ e.descriptor = descriptor) := by
  rw [method?, List.find?_eq_some_iff_getElem, MethodDef.fits_iff]
  refine and_congr_right fun _ => exists_congr fun i => ?_
  constructor
  · rintro ⟨hi, rfl, hfirst⟩
    refine ⟨List.getElem?_eq_getElem hi, fun j e hj he hfits => ?_⟩
    obtain ⟨_, rfl⟩ := List.getElem?_eq_some_iff.1 he
    have hnot := hfirst j hj
    rw [MethodDef.fits_iff.2 hfits] at hnot
    cases hnot
  · rintro ⟨hdeclared, hfirst⟩
    obtain ⟨hi, rfl⟩ := List.getElem?_eq_some_iff.1 hdeclared
    refine ⟨hi, rfl, fun j hj => ?_⟩
    rw [Bool.not_eq_true', Bool.eq_false_iff]
    exact fun hfits => hfirst j _ hj (List.getElem?_eq_getElem (Nat.lt_trans hj hi))
      (MethodDef.fits_iff.1 hfits)

/-- A class finds the last method of a name and descriptor. -/
theorem LoadedClass.declaredMethod?_eq_some_iff (h : define definer superclass? file = .ok k) :
    k.declaredMethod? name descriptor = some i ↔
      ∃ d, file.Declares i d ∧ d.name = name ∧ d.descriptor = descriptor := by
  rw [declaredMethod?_of_define h]
  constructor
  · intro hi
    obtain ⟨d, hd, hfits⟩ := exists_of_lastIndex? hi
    obtain ⟨rfl, rfl⟩ := MethodDef.fits_iff.1 hfits
    exact ⟨d, ⟨hd, fun j e he hname hdescriptor =>
      le_of_lastIndex? hi he (MethodDef.fits_iff.2 ⟨hname, hdescriptor⟩)⟩, rfl, rfl⟩
  · rintro ⟨d, ⟨hdeclared, hlatest⟩, rfl, rfl⟩
    refine lastIndex?_eq_some hdeclared (MethodDef.fits_iff.2 ⟨rfl, rfl⟩) fun j e he hfits => ?_
    obtain ⟨hname, hdescriptor⟩ := MethodDef.fits_iff.1 hfits
    exact hlatest j e he hname hdescriptor

/-- Where one of the two finds nothing, there is nothing. -/
theorem LoadedClass.declaredMethod?_eq_none_iff (h : define definer superclass? file = .ok k) :
    k.declaredMethod? name descriptor = none ↔ file.method? name descriptor = none := by
  rw [declaredMethod?_of_define h, lastIndex?_eq_none, ClassFile.method?, List.find?_eq_none]
  exact forall₂_congr fun e _ => Bool.eq_false_iff

/-- The only method of its name and descriptor is found either way. -/
theorem ClassFile.DeclaresOnce.found (h : file.DeclaresOnce i d)
    (hk : LoadedClass.define definer superclass? file = .ok k) :
    k.declaredMethod? d.name d.descriptor = some i ∧
      file.method? d.name d.descriptor = some d := by
  refine ⟨(LoadedClass.declaredMethod?_eq_some_iff hk).2 ⟨d, h.declares, rfl, rfl⟩, ?_⟩
  refine ClassFile.method?_eq_some_iff.2 ⟨⟨rfl, rfl⟩, i, h.declared, fun j e hj he hfits => ?_⟩
  exact Nat.ne_of_lt hj (h.only j e he hfits.1 hfits.2)

/-! ### By the names of parameter types -/

section Records

variable {m : Machine} {c : ClassRef} {call : CallRecord}

/-- What a record says is the class, the name and the parameter types of a method. The name is the
one under which the method is looked for, which for ordinary methods is that of the declared body.
-/
structure CallRecord.AsksFor (call : CallRecord) (m : Machine) (c : ClassRef) (d : MethodDef) :
    Prop where
  owner : call.owner = c
  name : call.directName (m.cls c) = d.name
  paramTypes : d.signature.map MethodDesc.paramNames = .ok call.paramTypes

theorem CallRecord.AsksFor.matches_iff (hcall : call.AsksFor m c d) {b : LoadedMethod}
    (hb : b.Prepares e) :
    (b.name == call.directName (m.cls c) && b.signature.paramNames == call.paramTypes) = true ↔
      e.ReadsLike d := by
  rw [Bool.and_eq_true, beq_iff_eq, beq_iff_eq, hcall.name, hb.name, MethodDef.ReadsLike,
    hcall.paramTypes, hb.signature]
  exact and_congr_right fun _ => ⟨congrArg Except.ok, Except.ok.inj⟩

/-- **Records.** A record leads to the method that it asks for unless an earlier one reads the
same. -/
theorem CallRecord.directMethod?_eq_some_iff (hcall : call.AsksFor m c d)
    (hmethods : (m.cls c).methods = k.methods) (hk : k.Prepares file)
    (hd : file.methods[i]? = some d) :
    call.directMethod? m.classes = some i ↔
      ∀ (j : Nat) e, j < i → file.methods[j]? = some e → ¬e.ReadsLike d := by
  have hprepared : ∀ (j : Nat) e, file.methods[j]? = some e →
      ∃ b, (m.cls c).methods[j]? = some b ∧ b.Prepares e :=
    fun j e he => hmethods ▸ hk.method j e he
  obtain ⟨b, hb, hprepares⟩ := hprepared i d hd
  obtain ⟨hi, rfl⟩ := List.getElem?_eq_some_iff.1 hb
  unfold CallRecord.directMethod?
  rw [hcall.owner]
  dsimp only
  rw [List.findIdx?_eq_some_iff_getElem]
  constructor
  · rintro ⟨_, -, hfirst⟩ j e hj he hreads
    obtain ⟨b', hb', hprepares'⟩ := hprepared j e he
    obtain ⟨_, rfl⟩ := List.getElem?_eq_some_iff.1 hb'
    exact hfirst j hj ((hcall.matches_iff hprepares').2 hreads)
  · intro hfirst
    refine ⟨hi, (hcall.matches_iff hprepares).2 ⟨rfl, rfl⟩, fun j hj htest => ?_⟩
    have hj' : j < file.methods.length := Nat.lt_trans hj (List.getElem?_eq_some_iff.1 hd).1
    have he := List.getElem?_eq_getElem hj'
    obtain ⟨b', hb', hprepares'⟩ := hprepared j _ he
    obtain ⟨_, rfl⟩ := List.getElem?_eq_some_iff.1 hb'
    exact hfirst j _ hj he ((hcall.matches_iff hprepares').1 htest)

end Records

/-! ### All three -/

/-- **Lookups.** A verified class file comes to a class that finds nothing where the class file has
nothing. A method that is the only one of its name and descriptor is found by the class, in its
place, and by whoever searches the class file, and so it is what calls of that name and descriptor
on the class execute. A record that asks for it leads to it exactly if no method that was declared
earlier reads the same, and then it is this method that is executed behind the call. -/
theorem lookups_agree_where_declared_once (hverify : file.verify = .ok ()) (definer : Definer)
    (superclass? : Option (ClassRef × LoadedClass)) :
    ∃ k, LoadedClass.define definer superclass? file = .ok k ∧
      (∀ name descriptor, k.declaredMethod? name descriptor = none ↔
        file.method? name descriptor = none) ∧
      ∀ (i : Nat) d, file.DeclaresOnce i d →
        (k.declaredMethod? d.name d.descriptor = some i ∧
          file.method? d.name d.descriptor = some d) ∧
        ∀ (m : Machine) (c : ClassRef), (m.cls c).fixed = k.fixed →
          m.classes.resolveMethod? c d.name d.descriptor = some (c, i) ∧
          ∀ call : CallRecord, call.AsksFor m c d →
            (call.directMethod? m.classes = some i ↔
              ∀ (j : Nat) e, j < i → file.methods[j]? = some e → ¬e.ReadsLike d) ∧
            (call.directMethod? m.classes = some i →
              (d.isStatic = true ∨ call.receiver.isNull = false) → ∀ execute : Execute,
                (Request.callDirect call).run execute m =
                  execute c i (if d.isStatic then call.args else call.receiver :: call.args) m) := by
  obtain ⟨k, hk⟩ := LoadedClass.exists_define_of_verify hverify definer superclass?
  have hprepares := LoadedClass.prepares_of_define hk
  refine ⟨k, hk, fun name descriptor => LoadedClass.declaredMethod?_eq_none_iff hk,
    fun i d hd => ⟨hd.found hk, fun m c hfix => ?_⟩⟩
  have hmethods := LoadedClass.methods_eq_of_fixed hfix
  have hfound : (m.cls c).declaredMethod? d.name d.descriptor = some i := by
    rw [LoadedClass.declaredMethod?, hmethods]
    exact (hd.found hk).1
  refine ⟨ClassTable.resolveMethod?_of_declaredMethod? hfound, fun call hcall =>
    ⟨CallRecord.directMethod?_eq_some_iff hcall hmethods hprepares hd.declared,
      fun hdirect hreceiver execute => ?_⟩⟩
  obtain ⟨b, hb, hbody⟩ := hprepares.method i d hd.declared
  rw [← hmethods] at hb
  have hstatic : b.isStatic = d.isStatic := congrArg (Access.has · .static) hbody.access
  rw [← hstatic] at hreceiver ⊢
  exact Run.callDirect_of_directMethod? hcall.owner hb hdirect hreceiver execute

/-- Records of calls of an echo are led where calls of the echo go. -/
theorem echoCall_led_where_calls_go :
    interceptedEchoFile.verify = .ok () ∧
      echoMachine.classes.resolveMethod? ⟨0⟩ (directMethodName "t.Echo" "echo") "(I)I" =
        some (⟨0⟩, 0) ∧
      echoCall.directMethod? echoMachine.classes = some 0 := by
  obtain ⟨hverify, hdistinct, hname, hdescriptor, hdeclared⟩ :
      interceptedEchoFile.verify = .ok () ∧ interceptedEchoFile.Distinct ∧
        (interceptedEchoFile.methods.getD 0 default).name = directMethodName "t.Echo" "echo" ∧
        (interceptedEchoFile.methods.getD 0 default).descriptor = "(I)I" ∧
        interceptedEchoFile.methods[0]? = some (interceptedEchoFile.methods.getD 0 default) := by
    decide +kernel
  obtain ⟨k, hk, -, hfound⟩ :=
    lookups_agree_where_declared_once hverify ⟨⟨0⟩, false, true, some ⟨0⟩⟩ none
  have hclass : echoMachine.cls ⟨0⟩ = k := by
    show (LoadedClass.define ⟨⟨0⟩, false, true, some ⟨0⟩⟩ none
      interceptedEchoFile).toOption.getD default = k
    rw [hk]
    rfl
  have honce : interceptedEchoFile.DeclaresOnce 0 (interceptedEchoFile.methods.getD 0 default) :=
    ⟨hdeclared, fun j e he hname hdescriptor =>
      hdistinct.eq_of_getElem? he hdeclared hname hdescriptor⟩
  obtain ⟨-, hmachine⟩ := hfound 0 _ honce
  obtain ⟨hresolve, hrecords⟩ := hmachine echoMachine ⟨0⟩ (congrArg LoadedClass.fixed hclass)
  rw [hname, hdescriptor] at hresolve
  have hasks : echoCall.AsksFor echoMachine ⟨0⟩ (interceptedEchoFile.methods.getD 0 default) :=
    ⟨rfl, by decide +kernel, by decide +kernel⟩
  exact ⟨hverify, hresolve,
    (hrecords echoCall hasks).1.2 fun j _ hj => absurd hj (Nat.not_lt_zero j)⟩

/-! ### Two methods with one key -/

/-- A class file that declares a method twice. -/
def repeatedFile : ClassFile where
  name := "t.Repeated"
  methods :=
    [⟨"f", "()I", Modifier.static.bit, [], 0, Code.encode [.constInt 1, .simple .ret]⟩,
      ⟨"f", "()I", Modifier.static.bit, [], 0, Code.encode [.constInt 2, .simple .ret]⟩]

/-- **Lookups disagree.** Of two methods with one name and descriptor the class file has the first
found and the class the second, which is another program. And where two methods differ in what they
return, the record of a call of the second is led to the first, while a call by its name and
descriptor goes to the second. -/
theorem lookups_disagree :
    (repeatedFile.verify = .ok () ∧ repeatedFile.method? "f" "()I" = some repeatedFile.methods[0] ∧
      repeatedFile.methods[0].code ≠ repeatedFile.methods[1].code ∧
      ∃ k, LoadedClass.define ⟨⟨0⟩, false, false, none⟩ none repeatedFile = .ok k ∧
        k.declaredMethod? "f" "()I" = some 1) ∧
    interceptedTwoFile.verify = .ok () ∧ interceptedTwoFile.Distinct ∧
      twoMachine.classes.resolveMethod? ⟨0⟩ (directMethodName "t.Two" "f") "()T" = some (⟨0⟩, 1) ∧
      (twoFile.methods[1].callOf ⟨0⟩ ⟨[], .text⟩ []).directMethod? twoMachine.classes = some 0 := by
  refine ⟨⟨by decide +kernel, by decide +kernel, by decide +kernel, ?_⟩, by decide +kernel,
    by decide +kernel, by decide +kernel, by decide +kernel⟩
  exact ⟨(LoadedClass.define ⟨⟨0⟩, false, false, none⟩ none repeatedFile).toOption.getD default,
    by decide +kernel, by decide +kernel⟩

end Interpose
