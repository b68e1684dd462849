import Interpose.Proofs.InterceptedCalls
/-!
# The way back from a record

A record names a method and the types of its parameters, in print. It does not say what the method
returns, nor which of two types that print alike was meant. So the way back goes to the first method
declared that reads the same, and it is the way back to the method that was called exactly if no
method before it does. A method that bears the name of constructor bodies is beyond reach, as records
of it are taken for records of constructors.

## Main definitions

* `MethodDef.ReadsLike`: methods that records do not tell apart
* `CallRecord.IsOf`: records of calls of a method

## Main results

* `Machine.Intercepts.directMethod?_eq_some_iff`: where a record leads
* `Machine.Intercepts.callDirect_eq`: what is done there
* `record_leads_back_iff`: both, for the records that stubs make
-/

namespace Interpose

/-! ### Records that read the same -/

/-- Two methods have one name, and the types of their parameters have the same names. -/
def MethodDef.ReadsLike (e d : MethodDef) : Prop :=
  e.name = d.name ∧ e.signature.map MethodDesc.paramNames = d.signature.map MethodDesc.paramNames

instance (e d : MethodDef) : Decidable (e.ReadsLike d) := inferInstanceAs (Decidable (_ ∧ _))

/-- A record of a call of a method of a class, whatever the receiver and the arguments. -/
structure CallRecord.IsOf (call : CallRecord) (c : ClassRef) (d : MethodDef)
    (signature : MethodDesc) : Prop where
  owner : call.owner = c
  method : call.method = d.recordName
  paramTypes : call.paramTypes = signature.paramNames

theorem MethodDef.isOf_callOf (d : MethodDef) (c : ClassRef) (signature : MethodDesc)
    (args : List Value) : (d.callOf c signature args).IsOf c d signature := ⟨rfl, rfl, rfl⟩

section Records

variable {m : Machine} {c : ClassRef} {file file' : ClassFile} {h : HandlerRef} {j : Nat}
variable {d e : MethodDef} {signature : MethodDesc} {call : CallRecord} {k : LoadedClass}

/-- What a record calls the declared body. -/
theorem CallRecord.IsOf.directName_eq (hcall : call.IsOf c d signature) (hname : k.name = file.name)
    (hclinit : d.name ≠ staticInitializerName) (hbody : d.name ≠ constructorBodyName) :
    call.directName k = Instrument.bodyName file.name d.name := by
  unfold CallRecord.directName CallRecord.isConstructor Instrument.bodyName
  rw [hcall.method, hname, MethodDef.recordName]
  by_cases hinit : d.name = constructorName
  · rw [if_pos hinit, if_pos hinit, if_pos (beq_self_eq_true _)]
  · rw [if_neg hinit, if_neg hinit, if_neg hclinit, if_neg (mt beq_iff_eq.1 hbody)]

/-- Records of a method with the name of constructor bodies are taken for records of constructors. -/
theorem CallRecord.IsOf.directName_eq_constructorBodyName (hcall : call.IsOf c d signature)
    (hbody : d.name = constructorBodyName) : call.directName k = constructorBodyName := by
  have hmethod : call.method = constructorBodyName := by
    rw [hcall.method, MethodDef.recordName, hbody]
    exact if_neg (by decide)
  unfold CallRecord.directName CallRecord.isConstructor
  rw [hmethod]
  exact if_pos (beq_self_eq_true _)

/-- The renamed half of a method, prepared. -/
theorem Machine.Intercepts.exists_renamed (hc : m.Intercepts c file file' h)
    (hd : file.methods[j]? = some d) :
    ∃ b, (m.cls c).methods[j]? = some b ∧ b.name = Instrument.bodyName file.name d.name ∧
      d.signature = .ok b.signature ∧ b.access = d.access := by
  obtain ⟨bodies, entries, added, pool, hfile⟩ :=
    ClassFile.exists_instrumented_of_transform hc.transform
  obtain ⟨body, entry, p, p', hbody, -, -, -, hsplit⟩ := hfile.exists_halves hd
  have hhalves := Instrument.halves_of_splitMethod hsplit
  obtain ⟨b, hb, hdefine⟩ := hc.exists_method hbody
  obtain ⟨signature, code, hsignature, -, rfl⟩ := LoadedMethod.define_eq_ok hdefine
  refine ⟨_, hb, hhalves.bodyName, ?_, hhalves.bodyAccess⟩
  rw [MethodDef.signature, ← hhalves.bodyDescriptor]
  exact hsignature

/-- The renamed half of a method is what a record looks for if the method reads like the one that the
record is of. -/
theorem CallRecord.IsOf.matches_iff (hcall : call.IsOf c d signature)
    (hsignature : d.signature = .ok signature) {b : LoadedMethod}
    (hname : b.name = Instrument.bodyName file.name e.name) (he : e.signature = .ok b.signature)
    (hdirect : call.directName k = Instrument.bodyName file.name d.name) :
    (b.name == call.directName k && b.signature.paramNames == call.paramTypes) = true ↔
      e.ReadsLike d := by
  rw [Bool.and_eq_true, beq_iff_eq, beq_iff_eq, hdirect, hname, hcall.paramTypes,
    MethodDef.ReadsLike, he, hsignature]
  refine and_congr ⟨Instrument.bodyName_inj, congrArg _⟩ ⟨congrArg Except.ok, Except.ok.inj⟩

/-- **The way back.** A record leads to the renamed half of the method that it is of, unless one that
was declared earlier reads the same. -/
theorem Machine.Intercepts.directMethod?_eq_some_iff (hc : m.Intercepts c file file' h)
    (hd : file.methods[j]? = some d) (hclinit : d.name ≠ staticInitializerName)
    (hsignature : d.signature = .ok signature) (hcall : call.IsOf c d signature) :
    call.directMethod? m.classes = some j ↔ d.name ≠ constructorBodyName ∧
      ∀ (i : Nat) e, i < j → file.methods[i]? = some e → ¬e.ReadsLike d := by
  obtain ⟨b, hb, hbname, hbsignature, -⟩ := hc.exists_renamed hd
  obtain ⟨hj, rfl⟩ := List.getElem?_eq_some_iff.1 hb
  unfold CallRecord.directMethod?
  rw [hcall.owner]
  dsimp only
  rw [List.findIdx?_eq_some_iff_getElem]
  by_cases hbody : d.name = constructorBodyName
  · -- Under the name of constructor bodies there is no direct name of a method.
    have hne : (m.cls c).methods[j].name ≠ constructorBodyName := by
      rw [hbname, Instrument.bodyName, if_neg (hbody ▸ by decide), if_neg hclinit]
      exact Instrument.constructorBodyName_ne.symm
    constructor
    · rintro ⟨_, htest, _⟩
      rw [Bool.and_eq_true, beq_iff_eq, hcall.directName_eq_constructorBodyName hbody] at htest
      exact absurd htest.1 hne
    · exact fun hboth => absurd hbody hboth.1
  have hdirect := hcall.directName_eq hc.name hclinit hbody
  constructor
  · rintro ⟨_, _, hfirst⟩
    refine ⟨hbody, fun i e hi he hreads => ?_⟩
    obtain ⟨b', hb', hname', hsignature', -⟩ := hc.exists_renamed he
    obtain ⟨hi', rfl⟩ := List.getElem?_eq_some_iff.1 hb'
    exact hfirst i hi ((hcall.matches_iff hsignature hname' hsignature' hdirect).2 hreads)
  · rintro ⟨_, hfirst⟩
    refine ⟨hj, (hcall.matches_iff hsignature hbname hbsignature hdirect).2 ⟨rfl, rfl⟩, ?_⟩
    intro i hi htest
    have hi' : i < file.methods.length :=
      Nat.lt_trans hi (List.getElem?_eq_some_iff.1 hd).1
    obtain ⟨b', hb', hname', hsignature', -⟩ := hc.exists_renamed (List.getElem?_eq_getElem hi')
    obtain ⟨_, rfl⟩ := List.getElem?_eq_some_iff.1 hb'
    exact hfirst i _ hi (List.getElem?_eq_getElem hi')
      ((hcall.matches_iff hsignature hname' hsignature' hdirect).1 htest)

/-- A record that leads back is of a native method exactly if the method is. -/
theorem Machine.Intercepts.targetsNative_eq (hc : m.Intercepts c file file' h)
    (hd : file.methods[j]? = some d) (howner : call.owner = c)
    (hdirect : call.directMethod? m.classes = some j) :
    call.targetsNative m.classes = d.isNative := by
  obtain ⟨b, hb, -, -, haccess⟩ := hc.exists_renamed hd
  unfold CallRecord.targetsNative
  rw [hdirect, howner]
  dsimp only
  rw [show (m.classes.get c).methods[j]? = some b from hb]
  show Access.has b.access _ = Access.has d.access _
  rw [haccess]

/-- To run the body behind a call is to execute the method that its record leads to, with the receiver
in front unless the method is static. -/
theorem Run.callDirect_of_directMethod? {b : LoadedMethod} (howner : call.owner = c)
    (hb : (m.cls c).methods[j]? = some b) (hdirect : call.directMethod? m.classes = some j)
    (hreceiver : b.isStatic = true ∨ call.receiver.isNull = false) (execute : Execute) :
    Run.callDirect execute call m =
      execute c j (if b.isStatic then call.args else call.receiver :: call.args) m := by
  have hget : (m.cls c).methods.getD j default = b := by
    rw [List.getD_eq_getElem?_getD, hb]
    rfl
  unfold Run.callDirect
  rw [Run.get_bind_apply, hdirect]
  dsimp only
  rw [howner, hget]
  split
  · rfl
  · rw [if_neg]
    rw [hreceiver.resolve_left ‹_›]
    exact Bool.false_ne_true

/-- **What is done there.** To run the body behind a call is to execute the renamed half of the
method, with the receiver in front unless the method is static. -/
theorem Machine.Intercepts.callDirect_eq (hc : m.Intercepts c file file' h)
    (hd : file.methods[j]? = some d) (howner : call.owner = c)
    (hdirect : call.directMethod? m.classes = some j)
    (hreceiver : d.isStatic = true ∨ call.receiver.isNull = false) (execute : Execute) :
    Run.callDirect execute call m =
      execute c j (if d.isStatic then call.args else call.receiver :: call.args) m := by
  obtain ⟨b, hb, -, -, haccess⟩ := hc.exists_renamed hd
  have hstatic : b.isStatic = d.isStatic := by
    show Access.has b.access _ = Access.has d.access _
    rw [haccess]
  rw [← hstatic] at hreceiver ⊢
  exact Run.callDirect_of_directMethod? howner hb hdirect hreceiver execute

/-- **Records of stubs.** Where a stub turns to the handler, it hands over a record of a call of its
method. Such a record leads back to the renamed half of that method exactly if the method has not the
name of constructor bodies and no method declared earlier reads the same; and then it is this half
that is called native or not, and that is executed. -/
theorem record_leads_back_iff (hc : m.Intercepts c file file' h) (hverify : file.verify = .ok ())
    (hverify' : file'.verify = .ok ()) (hd : file.methods[j]? = some d)
    (hclinit : d.name ≠ staticInitializerName) (hsignature : d.signature = .ok signature) :
    (∀ call : CallRecord, call.IsOf c d signature →
      (call.directMethod? m.classes = some j ↔ d.name ≠ constructorBodyName ∧
        ∀ (i : Nat) e, i < j → file.methods[i]? = some e → ¬e.ReadsLike d) ∧
      (call.directMethod? m.classes = some j → call.targetsNative m.classes = d.isNative ∧
        ((d.isStatic = true ∨ call.receiver.isNull = false) → ∀ execute : Execute,
          (Request.callDirect call).run execute m =
            execute c j (if d.isStatic then call.args else call.receiver :: call.args) m))) ∧
    ((d.name = constructorName → d.isStatic = false) →
      ∀ {handlers : Handlers} {args : List Value} {k : LoadedMethod} {f : Frame} {m₁ : Machine},
        args.length = signature.arity + (!d.isStatic).toNat → m.depth < m.maxDepth →
        (m.cls c).methods[file.methods.length + j]? = some k →
        ComesTo (fun n => Frame.advance handlers (executeWith handlers n) (file.openingOf d)
          (.enter c k.maxLocals.toNat args)) (m.atDepth (m.depth + 1)) (.ok f, m₁) →
        m₁.TurnsToHandler (handlers h) c d (d.receiverOf args) →
        ∃ call : CallRecord, call.IsOf c d signature ∧ ∀ r m',
          ComesTo (fun n => executeWith handlers n c (file.methods.length + j) args) m (r, m') ↔
            ∃ m'', ComesTo (fun n => ((handlers h).methodInvoked call).run
              (executeWith handlers n) >>= signature.answer) (m₁.recorded call) (r, m'') ∧
              m' = m''.atDepth m.depth) := by
  refine ⟨fun call hcall => ⟨hc.directMethod?_eq_some_iff hd hclinit hsignature hcall,
    fun hdirect => ⟨hc.targetsNative_eq hd hcall.owner hdirect, fun hreceiver execute =>
      hc.callDirect_eq hd hcall.owner hdirect hreceiver execute⟩⟩, ?_⟩
  intro hinit handlers args k f m₁ hargs hdepth hk hopening hhandler
  exact ⟨d.callOf c signature args, d.isOf_callOf c signature args,
    hc.comesTo_entry_iff hverify hverify' hd hclinit hinit hsignature hargs hdepth hk hopening
      hhandler⟩

/-- The record of an echo leads back to the method that echoes. -/
theorem echoCall_leads_back : echoCall.directMethod? echoMachine.classes = some 0 := by
  obtain ⟨hrecords, -⟩ := record_leads_back_iff (j := 0) echoMachine_intercepts echoFile_verify.1
    echoFile_verify.2 rfl (by decide +kernel) echoFile_signature
  have hecho : echoCall.IsOf ⟨0⟩ echoFile.methods[0] ⟨[.int], .int⟩ :=
    ⟨rfl, by decide +kernel, by decide +kernel⟩
  exact (hrecords echoCall hecho).1.2 ⟨by decide +kernel, fun i _ hi => absurd hi (Nat.not_lt_zero i)⟩

end Records

/-! ### Two methods that read the same -/

/-- A class file with two methods that differ in what they return, and so in nothing that a record
holds. -/
def twoFile : ClassFile where
  name := "t.Two"
  constants := { strings := ["a"] }
  methods :=
    [⟨"f", "()I", Modifier.static.bit, [], 0, Code.encode [.constInt 1, .simple .ret]⟩,
      ⟨"f", "()T", Modifier.static.bit, [], 0, Code.encode [.constString 0, .simple .ret]⟩]

/-- The instrumented form of that file. -/
def interceptedTwoFile : ClassFile := twoFile.transform.toOption.getD default

/-- A machine with a class of that form. -/
def twoMachine : Machine where
  realm := {
    classes := ⟨#[(LoadedClass.define ⟨⟨0⟩, false, true, some ⟨0⟩⟩ none
      interceptedTwoFile).toOption.getD default]⟩
    resources := {} }
  entry := ⟨0⟩

/-- The record of a call of the second method leads to the first, so that a handler that runs
declared bodies has the text be a number. -/
theorem record_of_second_leads_to_first :
    twoMachine.Intercepts ⟨0⟩ twoFile interceptedTwoFile ⟨0⟩ ∧ twoFile.verify = .ok () ∧
      interceptedTwoFile.verify = .ok () ∧ twoFile.Distinct ∧
      twoFile.methods[1].signature = .ok ⟨[], .text⟩ ∧
      (twoFile.methods[1].callOf ⟨0⟩ ⟨[], .text⟩ []).directMethod? twoMachine.classes = some 0 ∧
      ∃ m', ComesTo (fun n => executeWith (fun _ => ({ callThrough := true } : Recorder).handler) n
        ⟨0⟩ 3 []) twoMachine (.ok (.int 1), m') := by
  refine ⟨⟨by decide +kernel, by decide +kernel, ?_⟩, by decide +kernel, by decide +kernel,
    by decide +kernel, by decide +kernel, by decide +kernel, ?_⟩
  · exact ⟨⟨⟨0⟩, false, true, some ⟨0⟩⟩, none, _, rfl, rfl, by decide +kernel, rfl⟩
  · obtain ⟨⟨r, m'⟩, hrun, hr⟩ := Option.map_eq_some_iff.1 (show
      (executeWith (fun _ => ({ callThrough := true } : Recorder).handler) 40 ⟨0⟩ 3 [] twoMachine).map
        Prod.fst = some (.ok (.int 1)) by decide +kernel)
    cases hr
    exact ⟨m', 40, hrun⟩

end Interpose
