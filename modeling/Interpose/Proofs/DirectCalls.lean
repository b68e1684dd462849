import Interpose.Proofs.Entries
/-!
# Direct calls

Where the handler wants declared bodies to run, and where a marker says so, an intercepted call is as
good as a call of the declared body: it comes to the same outcome with the same effects, for
whatever list of arguments, on whatever heap, and at whatever depth of calls there is room for it.
The body runs one call deeper.

## Main definitions

* `Machine.MayCall`: values that a method may be called with

## Main results

* `Machine.Intercepts.comesTo_direct_iff`: methods by their place
* `comesTo_entry_iff_declaredBody`: methods by their name
-/

namespace Interpose

/-! ### Values that are handed over -/

namespace MethodDef

variable (d : MethodDef)

/-- The receiver among the values that a method is handed, or null if there is none. -/
def receiverOf (args : List Value) : Value := if d.isStatic then .null else args.headD .null

/-- The arguments among the values that a method is handed. -/
def argumentsOf (args : List Value) : List Value := if d.isStatic then args else args.tail

end MethodDef

/-- Values that a method of a class may be called with: as many as it takes, an instance of the class
first. The initialization of the class has begun if the method is static. -/
structure Machine.MayCall (m : Machine) (c : ClassRef) (d : MethodDef) (args : List Value) :
    Prop where
  length : ∀ signature, d.signature = .ok signature →
    args.length = signature.arity + (!d.isStatic).toNat
  receiver : d.isStatic = false → ∃ o, d.receiverOf args = .object o ∧ m.Instantiates o c
  begun : d.isStatic = true → (m.cls c).state ≠ .uninitialized

section Direct

variable {handlers : Handlers} {m m' : Machine} {c : ClassRef} {file file' : ClassFile}
variable {h : HandlerRef} {j : Nat} {d : MethodDef} {args : List Value}

/-- Values that a method may be called with are so later on. -/
theorem Machine.MayCall.evolves (hargs : m.MayCall c d args) (hc : m.classes.Has c)
    (hstatic : d.isStatic = false) (hm : m.Evolves m') : m'.MayCall c d args := by
  refine ⟨hargs.length, fun hs => ?_, fun hs => nomatch hstatic.symm.trans hs⟩
  obtain ⟨o, ho, hinstance⟩ := hargs.receiver hs
  exact ⟨o, ho, hm.instantiates hc hinstance⟩

/-- The receiver has a marker. -/
theorem Machine.MayCall.marked (hargs : m.MayCall c d args) (hc : m.Intercepts c file file' h)
    (hunclaimed : file.Unclaimed) {t : StubTarget} (ht : t.isStatic = d.isStatic) :
    t.Marked m c args := by
  intro hstatic
  obtain ⟨o, ho, hinstance⟩ := hargs.receiver (ht.symm.trans hstatic)
  have hreceiver : t.receiverOf args = .object o := by
    rw [← ho, StubTarget.receiverOf, MethodDef.receiverOf, ht]
  rw [hreceiver]
  exact hinstance.exists_marker (hc.exists_marker hunclaimed)

/-- With enough fuel for the stub, its run executes the declared body. -/
theorem exists_run_eq_executeBy (hc : m.Intercepts c file file' h)
    (hverify : file.verify = .ok ()) (hdistinct : file.Distinct) (hunclaimed : file.Unclaimed)
    (hd : file.methods[j]? = some d) (hinit : d.name ≠ constructorName)
    (hclinit : d.name ≠ staticInitializerName) (hcode : d.code ≠ []) (hargs : m.MayCall c d args)
    (hdirect : m.marked c (d.receiverOf args) = true ∨
      (handlers h).callsDirectly m (d.receiverOf args) = true) :
    ∃ t : StubTarget, ∃ k, (m.cls c).methods[file.methods.length + j]? = some k ∧
      t.Entry file'.constants [] k ∧ args.length = k.argumentCount ∧
      ∃ n, ∀ limit owner fuel,
        Frame.run handlers (executeBy limit handlers (fuel + n)) owner k (fuel + n)
            (.enter c k.maxLocals.toNat args) m =
          executeBy limit handlers (fuel + n) c j args (m.clearMarker c (d.receiverOf args)) := by
  obtain ⟨k, hk, hsignature, -, -, hentry⟩ := hc.exists_entry hd hinit hclinit
  obtain ⟨b, depthAt, hb, hbsignature, hbstatic, hnative, htyped⟩ :=
    hc.exists_body hverify hd hinit hclinit hcode
  have hsame : k.signature = b.signature := Except.ok.inj (hsignature.symm.trans hbsignature)
  rw [hsame] at hsignature hentry
  let t := Instrument.entryTarget file.name d b.signature
  have hlength : args.length = b.signature.arity + (!d.isStatic).toNat := hargs.length _ hsignature
  have hroom : args.length ≤ 65535 := by
    have hle := htyped.room
    have hlt := b.maxLocals.toNat_lt
    rw [LoadedMethod.argumentCount, hbstatic, ← hlength] at hle
    omega
  have he : t.Entry file'.constants [] k := hentry (by omega)
  have hargs' : args.length = k.argumentCount := hlength.trans he.argumentCount_eq.symm
  have hmarked : t.Marked m c args := hargs.marked hc hunclaimed rfl
  have hfound : m.classes.resolveMethod? c t.directName t.descriptor = some (c, j) := by
    have hname : Instrument.bodyName file.name d.name = t.directName := by
      rw [Instrument.bodyName, if_neg hinit, if_neg hclinit]
      rfl
    rw [← hname]
    exact hc.resolveMethod?_body hunclaimed hdistinct hd
  have hhanded : t.Handed (Frame.enter c k.maxLocals.toNat args).locals args :=
    he.handed hargs' hroom
  obtain ⟨n, hn⟩ := he.run_direct (hc.served rfl) hhanded hmarked hnative hdirect hfound
    (Instrument.ne_directMethodName (by decide)).symm hsignature hargs.begun
  refine ⟨t, k, hk, he, hargs', n, fun limit owner fuel => (hn _ _ fuel).trans ?_⟩
  -- A body without a result answers null, so the stub's null is the body's.
  have htyped' : b.WellTyped ((m.clearMarker c (d.receiverOf args)).cls c).constants depthAt := by
    rw [Machine.cls_clearMarker]
    exact htyped
  have hb' : ((m.clearMarker c (d.receiverOf args)).cls c).methods[j]? = some b := by
    rw [Machine.cls_clearMarker]
    exact hb
  exact htyped'.executeBy_answer hb'

/-- A direct call of an ordinary method that has a body, by its place in the class file, comes to what
the declared body comes to. -/
theorem Machine.Intercepts.comesTo_direct_iff (hc : m.Intercepts c file file' h)
    (hverify : file.verify = .ok ()) (hdistinct : file.Distinct) (hunclaimed : file.Unclaimed)
    (hd : file.methods[j]? = some d) (hinit : d.name ≠ constructorName)
    (hclinit : d.name ≠ staticInitializerName) (hcode : d.code ≠ []) (hargs : m.MayCall c d args)
    (hdepth : m.depth < m.maxDepth)
    (hdirect : m.marked c (d.receiverOf args) = true ∨
      (handlers h).callsDirectly (m.atDepth (m.depth + 1)) (d.receiverOf args) = true)
    (r : Except VmError Value) (m' : Machine) :
    ComesTo (fun n => executeWith handlers n c (file.methods.length + j) args) m (r, m') ↔
      ∃ m'', ComesTo (fun n => executeWith handlers n c j args)
          ((m.clearMarker c (d.receiverOf args)).atDepth (m.depth + 1)) (r, m'') ∧
        m' = m''.atDepth m.depth := by
  have hc' : (m.atDepth (m.depth + 1)).Intercepts c file file' h :=
    hc.of_extends (m.extends_atDepth _)
  have hargs' : (m.atDepth (m.depth + 1)).MayCall c d args :=
    ⟨hargs.length, hargs.receiver, hargs.begun⟩
  obtain ⟨t, k, hk, he, hlength, n, hn⟩ := exists_run_eq_executeBy hc' hverify hdistinct hunclaimed
    hd hinit hclinit hcode hargs' hdirect
  have hk' : (m.cls c).methods[file.methods.length + j]? = some k := hk
  simp only [← executeBy_enforced]
  have henters : Limit.enforced.verdict (k.obstacle? (m.cls c).name args m) = some none := by
    rw [he.obstacle?_eq hlength, if_neg (Nat.not_le.2 hdepth)]
    rfl
  rw [comesTo_executeBy_iff hk' henters, ← Machine.clearMarker_atDepth]
  refine exists_congr fun m'' => and_congr_left fun _ => ?_
  exact comesTo_iff_of_eq (steady_run _ k _) (steady_execute c j args) (hn .enforced (m.cls c).name)

/-- **Direct calls.** If the receiver's marker holds an instance of the class, or the handler wants
declared bodies to run, then a call of an ordinary method that has a body comes to an outcome exactly
if the declared body does, one call deeper, on the machine whose marker has been reset. The machine
is left as the body leaves it. -/
theorem comesTo_entry_iff_declaredBody (hc : m.Intercepts c file file' h)
    (hverify : file.verify = .ok ()) (hdistinct : file.Distinct) (hunclaimed : file.Unclaimed)
    (hd : d ∈ file.methods) (hinit : d.name ≠ constructorName)
    (hclinit : d.name ≠ staticInitializerName) (hcode : d.code ≠ []) (hargs : m.MayCall c d args)
    (hdepth : m.depth < m.maxDepth)
    (hdirect : m.marked c (d.receiverOf args) = true ∨
      (handlers h).callsDirectly (m.atDepth (m.depth + 1)) (d.receiverOf args) = true)
    {entry body : Nat} (hentry : (m.cls c).declaredMethod? d.name d.descriptor = some entry)
    (hbody : (m.cls c).declaredMethod? (directMethodName file.name d.name) d.descriptor = some body)
    (r : Except VmError Value) (m' : Machine) :
    ComesTo (fun n => executeWith handlers n c entry args) m (r, m') ↔
      ∃ m'', ComesTo (fun n => executeWith handlers n c body args)
          ((m.clearMarker c (d.receiverOf args)).atDepth (m.depth + 1)) (r, m'') ∧
        m' = m''.atDepth m.depth := by
  obtain ⟨j, hj⟩ := List.getElem?_of_mem hd
  have hname : Instrument.bodyName file.name d.name = directMethodName file.name d.name := by
    rw [Instrument.bodyName, if_neg hinit, if_neg hclinit]
  rw [hc.declaredMethod?_entry hunclaimed hdistinct hj hclinit] at hentry
  rw [← hname, hc.declaredMethod?_body hunclaimed hdistinct hj] at hbody
  obtain rfl : file.methods.length + j = entry := Option.some.inj hentry
  obtain rfl : j = body := Option.some.inj hbody
  exact hc.comesTo_direct_iff hverify hdistinct hunclaimed hj hinit hclinit hcode hargs hdepth
    hdirect r m'

end Direct

/-! ### A class that echoes -/

/-- A class file with one method, which answers its argument. -/
def echoFile : ClassFile where
  name := "t.Echo"
  methods :=
    [⟨"echo", "(I)I", Modifier.visible.bit, [], 2, Code.encode [.loadLocal 1, .simple .ret]⟩]

/-- The instrumented form of that file. -/
def interceptedEchoFile : ClassFile := echoFile.transform.toOption.getD default

/-- The class of that form, whose handler is the first. -/
def interceptedEcho : LoadedClass :=
  (LoadedClass.define ⟨⟨0⟩, false, true, some ⟨0⟩⟩ none interceptedEchoFile).toOption.getD default

/-- A machine with that class and an instance of it, whose marker is null. -/
def echoMachine : Machine where
  realm := { classes := ⟨#[interceptedEcho]⟩, resources := {} }
  heap := { objects := #[⟨⟨0⟩, #[.null]⟩] }
  entry := ⟨0⟩

theorem echoMachine_intercepts :
    echoMachine.Intercepts ⟨0⟩ echoFile interceptedEchoFile ⟨0⟩ where
  transform := by decide +kernel
  fits := by decide +kernel
  define := ⟨⟨⟨0⟩, false, true, some ⟨0⟩⟩, none, interceptedEcho, rfl, rfl, by decide +kernel, rfl⟩

theorem echoFile_unclaimed : echoFile.Unclaimed := ⟨by decide +kernel, by decide +kernel⟩

theorem echoFile_distinct : echoFile.Distinct :=
  List.nodup_cons.2 ⟨List.not_mem_nil, List.nodup_nil⟩

theorem echoFile_verify : echoFile.verify = .ok () ∧ interceptedEchoFile.verify = .ok () := by
  decide +kernel

theorem echoFile_signature : echoFile.methods[0].signature = .ok ⟨[.int], .int⟩ := by decide +kernel

/-- The stub of the echo, its declared body, and the marker of the object. -/
theorem echoMachine_members :
    (echoMachine.cls ⟨0⟩).declaredMethod? "echo" "(I)I" = some 1 ∧
      (echoMachine.cls ⟨0⟩).declaredMethod? (directMethodName "t.Echo" "echo") "(I)I" = some 0 ∧
      echoMachine.marker? ⟨0⟩ (.object ⟨0⟩) = some (⟨0⟩, 0, .null) := by
  decide +kernel

/-- The object may be asked to echo three. -/
theorem echoMachine_mayCall :
    echoMachine.MayCall ⟨0⟩ echoFile.methods[0] [.object ⟨0⟩, .int 3] := by
  refine ⟨fun signature hs => ?_, fun _ => ⟨⟨0⟩, rfl, ?_⟩, nofun⟩
  · obtain rfl : ⟨[.int], .int⟩ = signature := Except.ok.inj (echoFile_signature.symm.trans hs)
    rfl
  · exact ⟨⟨⟨0⟩, #[.null]⟩, rfl, by decide +kernel, by decide +kernel⟩

/-- The only object of the machine echoes three. -/
theorem echoMachine_comesTo :
    ComesTo (fun n => executeWith (fun _ => default) n ⟨0⟩ 1 [.object ⟨0⟩, .int 3]) echoMachine
      (.ok (.int 3), echoMachine) := by
  obtain ⟨hentry, hbody, -⟩ := echoMachine_members
  have hdirect : ((fun _ => default : Handlers) ⟨0⟩).callsDirectly (echoMachine.atDepth 1)
      (.object ⟨0⟩) = true := rfl
  refine (comesTo_entry_iff_declaredBody echoMachine_intercepts echoFile_verify.1
    echoFile_distinct echoFile_unclaimed (List.getElem_mem (Nat.zero_lt_one)) (by decide +kernel)
    (by decide +kernel) (by decide +kernel) echoMachine_mayCall (by decide +kernel) (.inr hdirect) hentry hbody _ _).2 ?_
  exact ⟨echoMachine.atDepth 1, ⟨3, by decide +kernel⟩, rfl⟩

end Interpose
