import Interpose.Proofs.Constructors
import Interpose.Proofs.DirectCalls
import Interpose.Dispatch.Recorder
/-!
# Intercepted calls

Where a call is not direct, the handler is told of it once: the class that declares the method, the
name the method was declared with, the receiver, the names of the parameter types, and the
arguments, all in order. What the handler answers is what the call comes to, converted if the return
type is primitive; and if the handler fails, the call fails with it.

This is so for every method that was declared, native and abstract ones included, and for
constructors from the point on where the superclass has been constructed.

A stub hands names and arguments over in two arrays of their own. They stay on the heap, where
nothing refers to them.

## Main definitions

* `MethodDef.callOf`: what the handler is told
* `Machine.recorded`: the machine with the arrays of a call
* `Machine.TurnsToHandler`: when the handler is asked

## Main results

* `StubTarget.Entry.comesTo_handler_iff`: stubs
* `Machine.Intercepts.comesTo_entry_iff`: methods by their place
* `comesTo_entry_iff_methodInvoked`: methods by their name
-/

namespace Interpose

/-! ### Calls as handlers see them -/

namespace MethodDef

variable (d : MethodDef)

/-- The name under which the handler is told of calls of a method. -/
def recordName : String :=
  if d.name = constructorName then constructorBodyName else d.name

/-- What the handler is told of a call of a method: the class, the name, the receiver or null, the
names of the parameter types, and the arguments. -/
def callOf (c : ClassRef) (signature : MethodDesc) (args : List Value) : CallRecord :=
  ⟨c, d.recordName, d.receiverOf args, signature.paramNames, d.argumentsOf args⟩

end MethodDef

namespace Machine

/-- The machine with the two arrays in which a stub hands a call over. -/
def recorded (m : Machine) (call : CallRecord) : Machine :=
  { m with
    heap := ((m.heap.allocateArray (call.paramTypes.map Value.text).toArray).2.allocateArray
      call.args.toArray).2 }

/-- A call is not direct: there is no body to fall back on, or the receiver has a marker that holds
no instance of the class, and the handler does not want declared bodies to run. -/
def TurnsToHandler (m : Machine) (handler : Handler) (c : ClassRef) (d : MethodDef)
    (receiver : Value) : Prop :=
  d.isNative = true ∨
    (d.isStatic = false → ∃ o slot v, m.marker? c receiver = some (o, slot, v) ∧
      m.holds c v = false) ∧
    handler.callsDirectly m receiver = false

end Machine

/-- **Stubs.** Behind its opening, a stub that turns to the handler comes to what the handler's plan
for the call comes to, as the return type has it. -/
theorem StubTarget.Entry.comesTo_handler_iff {t : StubTarget} {pool : Pool}
    {opening : List Instruction} {k : LoadedMethod} (he : t.Entry pool opening k) {m : Machine}
    {c : ClassRef} {h : HandlerRef} (hs : t.Served pool m c h) {locals args stack : List Value}
    (ha : t.Handed locals args) {handlers : Handlers}
    (hhandler : t.alwaysDispatch = true ∨ t.Marked m c args ∧
      m.marked c (t.receiverOf args) = false ∧
      (handlers h).callsDirectly m (t.receiverOf args) = false)
    (limit : Limit) (owner : String) (o : Except VmError Value × Machine) :
    ComesTo (fun n => Frame.run handlers (executeBy limit handlers n) owner k n
        ⟨c, opening.length, locals, stack⟩) m o ↔
      ComesTo (fun n => ((handlers h).methodInvoked (t.callOf c args)).run
          (executeBy limit handlers n) >>= t.signature.answer)
        (m.recorded (t.callOf c args)) o := by
  obtain ⟨n, hn⟩ := he.run_handler hs ha hhandler
  exact comesTo_iff_of_eq (steady_run owner k _)
    ((steady_plan _).bind fun v => steady_const (t.signature.answer v))
    fun fuel => hn (executeBy limit handlers (fuel + n)) owner fuel

section Intercepted

variable {handlers : Handlers} {m m₁ m' : Machine} {c : ClassRef} {file file' : ClassFile}
variable {h : HandlerRef} {j : Nat} {d : MethodDef} {args : List Value}

/-- What the stub behind an opening stands in for, whether the method is a constructor or not. -/
structure MethodDef.Target (d : MethodDef) (className : String) (t : StubTarget) : Prop where
  className : t.className = className
  recordName : t.recordName = d.recordName
  isStatic : t.isStatic = d.isStatic
  alwaysDispatch : t.alwaysDispatch = d.isNative

namespace MethodDef.Target

variable {className : String} {t : StubTarget} (ht : d.Target className t)
include ht

theorem receiverOf_eq (args : List Value) : t.receiverOf args = d.receiverOf args := by
  rw [StubTarget.receiverOf, MethodDef.receiverOf, ht.isStatic]

theorem argumentsOf_eq (args : List Value) : t.argumentsOf args = d.argumentsOf args := by
  rw [StubTarget.argumentsOf, MethodDef.argumentsOf, ht.isStatic]

theorem callOf_eq (c : ClassRef) (args : List Value) :
    t.callOf c args = d.callOf c t.signature args := by
  rw [StubTarget.callOf, MethodDef.callOf, ht.recordName, ht.receiverOf_eq, ht.argumentsOf_eq]

/-- What the stub asks before it turns to the handler. -/
theorem turnsToHandler {handler : Handler} (h : m.TurnsToHandler handler c d (d.receiverOf args)) :
    t.alwaysDispatch = true ∨ t.Marked m c args ∧ m.marked c (t.receiverOf args) = false ∧
      handler.callsDirectly m (t.receiverOf args) = false := by
  rw [ht.alwaysDispatch, StubTarget.Marked, ht.isStatic, ht.receiverOf_eq]
  refine h.imp id fun ⟨hmarker, hcalls⟩ => ⟨fun hs => ?_, ?_, hcalls⟩
  · obtain ⟨o, slot, v, hv, -⟩ := hmarker hs
    rw [hv]
    rfl
  · cases hs : d.isStatic with
    | true =>
      rw [MethodDef.receiverOf, hs]
      rfl
    | false =>
      obtain ⟨o, slot, v, hv, hholds⟩ := hmarker hs
      rw [Machine.marked, hv]
      exact hholds

end MethodDef.Target

/-- The stub under the name of a method, and the way to it, which is straight. -/
theorem Machine.Intercepts.exists_stub (hc : m.Intercepts c file file' h)
    (hverify : file.verify = .ok ()) (hverify' : file'.verify = .ok ())
    (hd : file.methods[j]? = some d) (hclinit : d.name ≠ staticInitializerName)
    (hinit : d.name = constructorName → d.isStatic = false) :
    ∃ t k, (m.cls c).methods[file.methods.length + j]? = some k ∧ d.signature = .ok k.signature ∧
      d.Target file.name t ∧ t.Entry file'.constants (file.openingOf d) k ∧
      k.argumentCount ≤ 65535 ∧
      ∀ args, args.length = k.argumentCount → ∃ n,
        Straight file'.constants (Frame.enter c k.maxLocals.toNat args).locals 0
          (file.openingOf d) n := by
  by_cases hname : d.name = constructorName
  · obtain ⟨code, rest, k, b, hk⟩ :=
      hc.exists_constructor hverify hverify' hd hname (hinit hname)
    refine ⟨Instrument.constructorTarget file.name d k.signature, k, hk.entry, hk.signature, ?_,
      hk.stub, hc.argumentCount_le hverify' hk.entry hk.stub.native hk.stub.abstract,
      fun args hargs => ?_⟩
    · exact ⟨rfl, (if_pos hname).symm, (hinit hname).symm, hk.native.symm⟩
    obtain ⟨depthAt, htyped⟩ := hk.entryTyped
    refine Straight.of_typed htyped.typed htyped.start (fun q hq => ?_) hk.parts.passes ?_
    · rw [Nat.zero_add]
      exact hk.stub.begins q hq
    · exact Frame.length_enter_locals (hargs ▸ htyped.room)
  · obtain ⟨k, hk, hsignature, hnative, habstract, hentry⟩ := hc.exists_entry hd hname hclinit
    have hfits : k.argumentCount ≤ 65535 := hc.argumentCount_le hverify' hk hnative habstract
    rw [ClassFile.openingOf_eq_nil hname]
    refine ⟨Instrument.entryTarget file.name d k.signature, k, hk, hsignature,
      ⟨rfl, (if_neg hname).symm, rfl, rfl⟩, hentry ?_, hfits, fun _ _ => ⟨0, .nil 0⟩⟩
    rw [LoadedMethod.argumentCount] at hfits
    omega

/-- A call of a method, by its place in the class file, comes to what the handler's plan for it comes
to, if the stub turns to the handler once the opening has run. -/
theorem Machine.Intercepts.comesTo_entry_iff (hc : m.Intercepts c file file' h)
    (hverify : file.verify = .ok ()) (hverify' : file'.verify = .ok ())
    (hd : file.methods[j]? = some d) (hclinit : d.name ≠ staticInitializerName)
    (hinit : d.name = constructorName → d.isStatic = false) {signature : MethodDesc}
    (hsignature : d.signature = .ok signature)
    (hargs : args.length = signature.arity + (!d.isStatic).toNat) (hdepth : m.depth < m.maxDepth)
    {k : LoadedMethod} (hk : (m.cls c).methods[file.methods.length + j]? = some k) {f : Frame}
    (hopening : ComesTo (fun n => Frame.advance handlers (executeWith handlers n)
      (file.openingOf d) (.enter c k.maxLocals.toNat args)) (m.atDepth (m.depth + 1)) (.ok f, m₁))
    (hhandler : m₁.TurnsToHandler (handlers h) c d (d.receiverOf args))
    (r : Except VmError Value) (m' : Machine) :
    ComesTo (fun n => executeWith handlers n c (file.methods.length + j) args) m (r, m') ↔
      ∃ m'', ComesTo (fun n => ((handlers h).methodInvoked (d.callOf c signature args)).run
          (executeWith handlers n) >>= signature.answer)
          (m₁.recorded (d.callOf c signature args)) (r, m'') ∧
        m' = m''.atDepth m.depth := by
  obtain ⟨t, k', hk', hsignature', ht, he, hfits, hstraight⟩ :=
    hc.exists_stub hverify hverify' hd hclinit hinit
  obtain rfl : k' = k := Option.some.inj (hk'.symm.trans hk)
  obtain rfl : k'.signature = signature := Except.ok.inj (hsignature'.symm.trans hsignature)
  have hargs' : args.length = k'.argumentCount := by
    rw [he.argumentCount_eq, ← he.signature, ht.isStatic]
    exact hargs
  obtain ⟨n, hn⟩ := hstraight args hargs'
  let inside := m.atDepth (m.depth + 1)
  have hstraight' : Straight (inside.cls c).constants (Frame.enter c k'.maxLocals.toNat args).locals
      ([] : List Value).length (file.openingOf d) n := by
    rw [show (inside.cls c).constants = file'.constants from hc.constants]
    exact hn
  simp only [← executeBy_enforced] at hopening ⊢
  -- The opening leaves the arguments among the locals, and the class as it is.
  obtain ⟨hevolves, stack, rfl⟩ : inside.Evolves m₁ ∧ ∃ stack,
      f = ⟨c, (file.openingOf d).length, (Frame.enter c k'.maxLocals.toNat args).locals, stack⟩ := by
    obtain ⟨fuel, hfuel⟩ := hopening
    have he' : Simulation.exactly.ExecuteSim (executeBy .enforced handlers fuel)
        (executeBy .enforced handlers fuel) := Simulation.executeBy_exactly _ _ (Nat.le_refl _)
    obtain ⟨hevolves, stack, hf, -⟩ :=
      hstraight'.advance_ok rfl hc.has he' (Machine.Extends.refl inside) hfuel
    rw [Nat.zero_add] at hf
    exact ⟨hevolves, stack, hf⟩
  have hc₁ : m₁.Intercepts c file file' h := hc.of_extends hevolves.classes
  have henters : Limit.enforced.verdict (k'.obstacle? (m.cls c).name args m) = some none := by
    rw [he.obstacle?_eq hargs', if_neg (Nat.not_le.2 hdepth)]
    rfl
  rw [comesTo_executeBy_iff hk henters]
  refine exists_congr fun m'' => and_congr_left fun _ => ?_
  have hbegins : ∀ q : Nat, q < (file.openingOf d).length →
      k'.code[0 + q]? = (file.openingOf d)[q]? := fun q hq => by
    rw [Nat.zero_add]
    exact he.begins q hq
  refine (hstraight'.comesTo_iff hc.has hbegins hopening (m.cls c).name).trans ?_
  rw [he.comesTo_handler_iff (hc₁.served ht.className) (he.handed hargs' (hargs' ▸ hfits))
    (ht.turnsToHandler hhandler), ht.callOf_eq, he.signature]

/-- **Intercepted calls.** A call of a declared method that is not direct, once its opening has run,
comes to what the handler's plan for it comes to, and the handler's answer is converted if the return
type is primitive. The machine is left as the plan leaves it, two arrays apart. -/
theorem comesTo_entry_iff_methodInvoked (hc : m.Intercepts c file file' h)
    (hverify : file.verify = .ok ()) (hverify' : file'.verify = .ok ()) (hdistinct : file.Distinct)
    (hunclaimed : file.Unclaimed) (hd : d ∈ file.methods) (hclinit : d.name ≠ staticInitializerName)
    (hinit : d.name = constructorName → d.isStatic = false) {signature : MethodDesc}
    (hsignature : d.signature = .ok signature)
    (hargs : args.length = signature.arity + (!d.isStatic).toNat)
    (hdepth : m.depth < m.maxDepth) {entry : Nat} {k : LoadedMethod}
    (hentry : (m.cls c).declaredMethod? d.name d.descriptor = some entry)
    (hk : (m.cls c).methods[entry]? = some k) {f : Frame}
    (hopening : ComesTo (fun n => Frame.advance handlers (executeWith handlers n)
      (file.openingOf d) (.enter c k.maxLocals.toNat args)) (m.atDepth (m.depth + 1)) (.ok f, m₁))
    (hhandler : m₁.TurnsToHandler (handlers h) c d (d.receiverOf args))
    (r : Except VmError Value) (m' : Machine) :
    ComesTo (fun n => executeWith handlers n c entry args) m (r, m') ↔
      ∃ m'', ComesTo (fun n => ((handlers h).methodInvoked (d.callOf c signature args)).run
          (executeWith handlers n) >>= signature.answer)
          (m₁.recorded (d.callOf c signature args)) (r, m'') ∧
        m' = m''.atDepth m.depth := by
  obtain ⟨j, hj⟩ := List.getElem?_of_mem hd
  rw [hc.declaredMethod?_entry hunclaimed hdistinct hj hclinit] at hentry
  obtain rfl : file.methods.length + j = entry := Option.some.inj hentry
  exact hc.comesTo_entry_iff hverify hverify' hj hclinit hinit hsignature hargs hdepth hk hopening
    hhandler r m'

end Intercepted

/-- The call that a recorder is told of when an object echoes three. -/
def echoCall : CallRecord := ⟨⟨0⟩, "echo", .object ⟨0⟩, ["int"], [.int 3]⟩

/-- Recorders that write down what they are told, and answer null. -/
def recorders : Handlers := fun _ => ({} : Recorder).handler

/-- A recorder that writes the call down and answers null has the echo be zero. -/
theorem echoMachine_comesTo_zero :
    ComesTo (fun n => executeWith recorders n ⟨0⟩ 1 [.object ⟨0⟩, .int 3]) echoMachine
      (.ok (.int 0), { echoMachine.recorded echoCall with journal := #[.called echoCall] }) := by
  have hnames : echoFile.methods[0].name ≠ staticInitializerName ∧
      echoFile.methods[0].name ≠ constructorName := by decide +kernel
  obtain ⟨hentry, -, hmarker⟩ := echoMachine_members
  have hasks : (echoMachine.atDepth 1).TurnsToHandler (recorders ⟨0⟩) ⟨0⟩ echoFile.methods[0]
      (echoFile.methods[0].receiverOf [.object ⟨0⟩, .int 3]) :=
    .inr ⟨fun _ => ⟨⟨0⟩, 0, .null, hmarker, rfl⟩, rfl⟩
  have hk : ∃ k, (echoMachine.cls ⟨0⟩).methods[1]? = some k :=
    Option.isSome_iff_exists.1 (by decide +kernel)
  obtain ⟨k, hk⟩ := hk
  refine (comesTo_entry_iff_methodInvoked echoMachine_intercepts echoFile_verify.1 echoFile_verify.2
    echoFile_distinct echoFile_unclaimed (List.getElem_mem (Nat.zero_lt_one)) hnames.1
    (fun h => absurd h hnames.2) echoFile_signature (by decide +kernel) (by decide +kernel)
    hentry hk ⟨0, rfl⟩ hasks _ _).2 ?_
  exact ⟨{ (echoMachine.atDepth 1).recorded echoCall with journal := #[.called echoCall] },
    ⟨0, by decide +kernel⟩, rfl⟩

end Interpose
