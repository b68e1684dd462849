import Interpose.Proofs.ClosedMachines
import Interpose.Proofs.InsetHandlers
import Interpose.Proofs.PastStubs
import Interpose.Proofs.Records
/-!
# Calling through

A wrangler that calls through sends a call for which it has no substitute back to the declared body.
The call takes the whole way round, from the stub over a record to the wrangler, and from the record
to the body by the names in it. Where these names belong to one method only, the way ends at the body
of that method, never at a stub again, and the call comes to what the body comes to, converted if the
return type is primitive.

The record takes two arrays, which stay behind. So the body runs beside them when the call takes the
long way, and without them when it is executed at once. Nothing refers to them, and the arrays that
are made later come to stand behind them; for the rest, both runs are the same.

## Main definitions

* `Machine.recordInset`: the arrays of a record

## Main results

* `Wrangler.run_methodInvoked`: what a wrangler does with a call it has no substitute for
* `Machine.Closed.recorded_eq`: the arrays of a record, set in
* `comesTo_entry_iff_calledThrough`: what the call comes to
-/

namespace Interpose

namespace Run

variable {α : Type}

/-- To run a computation and go on as it went is to run it. -/
theorem attempt_bind_resume (x : Run α) : (attempt x >>= resume) = x := by
  funext m
  rw [bind_apply]
  unfold attempt
  rcases x m with _ | ⟨_ | a, m'⟩ <;> rfl

end Run

/-- A plan that makes one request does what the request does. -/
theorem Plan.run_ask (r : Request) (execute : Execute) : (Plan.ask r).run execute = r.run execute :=
  Run.attempt_bind_resume (r.run execute)

/-- A wrangler that calls through and has nothing bound to the class runs the body behind a call, if
there is one. -/
theorem Wrangler.run_methodInvoked {w : Wrangler} (hthrough : w.options.callThrough = true)
    {call : CallRecord} {m : Machine} (hbinding : w.binding? (m.cls call.owner).name = none)
    (hnative : call.targetsNative m.classes = false) (execute : Execute) :
    (w.handler.methodInvoked call).run execute m = Run.callDirect execute call m := by
  show (w.answer (m.cls call.owner).name (call.targetsNative m.classes) call).run execute m = _
  rw [Wrangler.answer, hbinding, hnative, hthrough]
  exact congrFun (Plan.run_ask (.callDirect call) execute) m

/-- What a method of a signature answers once a value has come back to its stub: the value, converted
if the return type is primitive. -/
def MethodDesc.unboxed (signature : MethodDesc) (v : Value) : Run Value :=
  if signature.ret.isPrimitive then Run.unbox signature.ret v else pure v

/-- If there is no result, the body has answered null already. -/
theorem LoadedMethod.WellTyped.execute_answer {handlers : Handlers} {m : Machine} {c : ClassRef}
    {i : Nat} {k : LoadedMethod} {depthAt : Nat → Option Nat}
    (h : k.WellTyped (m.cls c).constants depthAt) (hk : (m.cls c).methods[i]? = some k)
    {args : List Value} {fuel : Nat} :
    (executeWith handlers fuel c i args >>= k.signature.answer) m =
      (executeWith handlers fuel c i args >>= k.signature.unboxed) m := by
  rw [Run.bind_apply, Run.bind_apply]
  rcases hx : executeWith handlers fuel c i args m with _ | ⟨_ | v, m'⟩
  · rfl
  · rfl
  dsimp only
  unfold MethodDesc.answer MethodDesc.unboxed
  cases hvoid : k.signature.ret.isVoid with
  | false => rfl
  | true =>
    rw [← executeBy_enforced] at hx
    rw [h.eq_null_of_executeBy hk hvoid hx, TypeDesc.isVoid_iff.1 hvoid]
    rfl

/-! ### The arrays of a record -/

namespace Machine

/-- The arrays of a record, behind all that are there. -/
def recordInset (m : Machine) (call : CallRecord) : Inset :=
  { first := m.heap.arrays.size
    items := #[(call.paramTypes.map Value.text).toArray, call.args.toArray] }

variable {m : Machine}

/-- How deep calls are nested has nothing to do with arrays. -/
theorem Closed.atDepth (h : m.Closed) (d : Nat) : (m.atDepth d).Closed :=
  ⟨h.objects, h.arrays, h.defaults, h.statics, h.journal⟩

/-- **Records.** On a closed machine, the arrays of a record are set in and nothing else changes. -/
theorem Closed.recorded_eq (h : m.Closed) (call : CallRecord) :
    m.recorded call = (m.recordInset call).machine m := by
  have hpush : (m.heap.arrays.push (call.paramTypes.map Value.text).toArray).push call.args.toArray =
      m.heap.arrays ++ #[(call.paramTypes.map Value.text).toArray, call.args.toArray] :=
    Array.ext' (by simp)
  have hitems : (m.recordInset call).items ≠ #[] := Array.size_pos_iff.1 Nat.zero_lt_two
  refine Eq.trans ?_ (h.machine_eq hitems).symm
  rw [recordInset, ← hpush]
  rfl

end Machine

/-- An execution whose result is converted, on values without arrays behind the inset. -/
theorem Inset.executeUnboxed_carries {s : Inset} {handlers : Handlers}
    (hhandlers : ∀ ref, s.CarriesHandler (handlers ref)) (fuel : Nat) (c : ClassRef) (i : Nat)
    {args : List Value} (hargs : ∀ v ∈ args, v.Within s.first) (signature : MethodDesc) :
    s.Carries s.value (executeWith handlers fuel c i args >>= signature.unboxed)
      (executeWith handlers fuel c i args >>= signature.unboxed) := by
  have := executeWith_carries hhandlers fuel
  have hsame : s.Takes (List.map s.value) args args := ⟨(list_of_within hargs).symm⟩
  unfold MethodDesc.unboxed
  split <;> infer_instance

section CallThrough

variable {handlers : Handlers} {m m' : Machine} {c : ClassRef} {file file' : ClassFile}
variable {h : HandlerRef} {d : MethodDef} {args : List Value} {signature : MethodDesc}

/-- The values that a method is handed are its receiver, if there is one, and its arguments. -/
theorem MethodDef.handed_eq (hargs : args.length = signature.arity + (!d.isStatic).toNat) :
    (if d.isStatic then d.argumentsOf args else d.receiverOf args :: d.argumentsOf args) = args := by
  unfold MethodDef.argumentsOf MethodDef.receiverOf
  cases hs : d.isStatic with
  | true => rfl
  | false =>
    rw [hs] at hargs
    cases args with
    | nil => exact nomatch hargs
    | cons v rest => rfl

/-- A wrangler that calls through sends a call of a method back to the renamed half of the method, if
no other method reads the same. -/
theorem Machine.Intercepts.run_methodInvoked (hc : m.Intercepts c file file' h) {w : Wrangler}
    (hthrough : w.options.callThrough = true) (hbinding : w.binding? file.name = none) {j : Nat}
    (hd : file.methods[j]? = some d) (hclinit : d.name ≠ staticInitializerName)
    (hbody : d.name ≠ constructorBodyName)
    (hfirst : ∀ (i : Nat) e, i < j → file.methods[i]? = some e → ¬e.ReadsLike d)
    (hnative : d.isNative = false) (hsignature : d.signature = .ok signature)
    (hargs : args.length = signature.arity + (!d.isStatic).toNat)
    (hreceiver : d.isStatic = true ∨ (d.receiverOf args).isNull = false) (execute : Execute) :
    (w.handler.methodInvoked (d.callOf c signature args)).run execute m = execute c j args m := by
  have hdirect : (d.callOf c signature args).directMethod? m.classes = some j :=
    (hc.directMethod?_eq_some_iff hd hclinit hsignature (d.isOf_callOf c signature args)).2
      ⟨hbody, hfirst⟩
  have hbinding' : w.binding? (m.cls (d.callOf c signature args).owner).name = none := by
    rw [show (m.cls (d.callOf c signature args).owner).name = file.name from hc.name]
    exact hbinding
  rw [Wrangler.run_methodInvoked hthrough hbinding' ((hc.targetsNative_eq hd rfl hdirect).trans hnative),
    hc.callDirect_eq hd rfl hdirect hreceiver]
  show execute c j (if d.isStatic then d.argumentsOf args else
    d.receiverOf args :: d.argumentsOf args) m = _
  rw [d.handed_eq hargs]

/-- A call that is called through, on a machine on which calls may be nested deeper, comes to what the
body comes to beside the arrays of the record. -/
theorem Machine.Intercepts.comesTo_entry_iff_recorded (hc : m.Intercepts c file file' h)
    (hverify : file.verify = .ok ()) (hverify' : file'.verify = .ok ()) (hdistinct : file.Distinct)
    (hunclaimed : file.Unclaimed) {w : Wrangler} (hwrangler : handlers h = w.handler)
    (hthrough : w.options.callThrough = true) (hindirect : w.direct = false)
    (hbinding : w.binding? file.name = none) {j : Nat} (hj : file.methods[j]? = some d)
    (hinit : d.name ≠ constructorName) (hclinit : d.name ≠ staticInitializerName)
    (hcode : d.code ≠ []) (hunique : ∀ e ∈ file.methods, e.ReadsLike d → e = d)
    (hsignature : d.signature = .ok signature)
    (hargs : args.length = signature.arity + (!d.isStatic).toNat)
    (hmarker : d.isStatic = false → ∃ o slot, m.marker? c (d.receiverOf args) = some (o, slot, .null))
    (hdepth : m.depth < m.maxDepth) (r : Except VmError Value) (m' : Machine) :
    ComesTo (fun n => executeWith handlers n c (file.methods.length + j) args) m (r, m') ↔
      ∃ m'', ComesTo (fun n => executeWith handlers n c j args >>= signature.unboxed)
          ((m.atDepth (m.depth + 1)).recorded (d.callOf c signature args)) (r, m'') ∧
        m' = m''.atDepth m.depth := by
  obtain ⟨t, k, hk, hksignature, ht, he, -, -⟩ :=
    hc.exists_stub hverify hverify' hj hclinit (absurd · hinit)
  obtain ⟨b, depthAt, hb, hbsignature, hbstatic, hnative, htyped⟩ :=
    hc.exists_body hverify hj hinit hclinit hcode
  obtain rfl : b.signature = signature := Except.ok.inj (hbsignature.symm.trans hsignature)
  have hfirst : ∀ (i : Nat) e, i < j → file.methods[i]? = some e → ¬e.ReadsLike d := by
    intro i e hi hie hreads
    obtain rfl := hunique e (List.mem_of_getElem? hie) hreads
    exact absurd (hdistinct.eq_of_getElem? hie hj rfl rfl) (Nat.ne_of_lt hi)
  have hclaimed : d.name ≠ constructorBodyName := fun heq =>
    hunclaimed.methods d (List.mem_of_getElem? hj) (.inr (.inl heq))
  have hreceiver : d.isStatic = true ∨ (d.receiverOf args).isNull = false := by
    cases hs : d.isStatic with
    | true => exact .inl rfl
    | false =>
      obtain ⟨o, slot, hv⟩ := hmarker hs
      rw [(Machine.marker?_eq_some hv).1]
      exact .inr rfl
  have hopening : ComesTo (fun n => Frame.advance handlers (executeWith handlers n)
      (file.openingOf d) (.enter c k.maxLocals.toNat args)) (m.atDepth (m.depth + 1))
      (.ok (.enter c k.maxLocals.toNat args), m.atDepth (m.depth + 1)) := by
    rw [ClassFile.openingOf_eq_nil hinit]
    exact ⟨0, rfl⟩
  have hhandler : (m.atDepth (m.depth + 1)).TurnsToHandler (handlers h) c d
      (d.receiverOf args) := by
    refine .inr ⟨fun hs => ?_, ?_⟩
    · obtain ⟨o, slot, hv⟩ := hmarker hs
      exact ⟨o, slot, .null, hv, rfl⟩
    · rw [hwrangler]
      exact hindirect
  rw [hc.comesTo_entry_iff hverify hverify' hj hclinit (absurd · hinit) hsignature hargs hdepth hk
    hopening hhandler]
  refine exists_congr fun m'' => and_congr_left fun _ => exists_congr fun n => ?_
  let inside := (m.atDepth (m.depth + 1)).recorded (d.callOf c b.signature args)
  have hc' : inside.Intercepts c file file' h := hc.of_extends (m.extends_atDepth (m.depth + 1))
  have hb' : (inside.cls c).methods[j]? = some b := hb
  have htyped' : b.WellTyped (inside.cls c).constants depthAt := htyped
  have hbody : ((w.handler.methodInvoked (d.callOf c b.signature args)).run
        (executeWith handlers n) >>= b.signature.answer) inside =
      (executeWith handlers n c j args >>= b.signature.unboxed) inside := by
    rw [← htyped'.execute_answer hb', Run.bind_apply, Run.bind_apply, hc'.run_methodInvoked hthrough
      hbinding hj hclinit hclaimed hfirst hnative hsignature hargs hreceiver]
  rw [hwrangler]
  exact ⟨hbody.symm.trans, hbody.trans⟩

/-- Where calls are nested too deep, neither a method nor its body is entered. -/
theorem Machine.Intercepts.comesTo_stackOverflow (hc : m.Intercepts c file file' h)
    (hverify : file.verify = .ok ()) (hverify' : file'.verify = .ok ()) {j : Nat}
    (hj : file.methods[j]? = some d) (hinit : d.name ≠ constructorName)
    (hclinit : d.name ≠ staticInitializerName) (hcode : d.code ≠ [])
    (hsignature : d.signature = .ok signature)
    (hargs : args.length = signature.arity + (!d.isStatic).toNat) (hdepth : m.maxDepth ≤ m.depth) :
    ComesTo (fun n => executeWith handlers n c (file.methods.length + j) args) m
        (.error .stackOverflow, m) ∧
      ComesTo (fun n => executeWith handlers n c j args) (m.atDepth (m.depth + 1))
        (.error .stackOverflow, m.atDepth (m.depth + 1)) := by
  obtain ⟨t, k, hk, hksignature, ht, he, -, -⟩ :=
    hc.exists_stub hverify hverify' hj hclinit (absurd · hinit)
  obtain ⟨b, -, hb, hbsignature, hbstatic, -, -⟩ := hc.exists_body hverify hj hinit hclinit hcode
  obtain rfl : b.signature = signature := Except.ok.inj (hbsignature.symm.trans hsignature)
  constructor
  · refine comesTo_of_obstacle hk ?_
    rw [he.obstacle?_eq, if_pos hdepth]
    rw [he.argumentCount_eq, ht.isStatic, ← he.signature,
      Except.ok.inj (hksignature.symm.trans hsignature)]
    exact hargs
  · obtain ⟨b', hb', -, -, haccess⟩ := hc.exists_renamed hj
    obtain rfl : b = b' := Option.some.inj (hb.symm.trans hb')
    obtain ⟨hn, ha⟩ := Verifier.flags_of_checkMethod
      (ClassFile.checkMethod_of_verify hverify (List.mem_of_getElem? hj)) hcode
    have hflag : ∀ f, Access.has b.access f = Access.has d.access f := fun f => by rw [haccess]
    refine comesTo_of_obstacle hb ?_
    rw [LoadedMethod.obstacle?_eq ((hflag .native).trans hn) ((hflag .abstract).trans ha)]
    · exact if_pos (Nat.le_succ_of_le hdepth)
    · rw [LoadedMethod.argumentCount, hbstatic]
      exact hargs

/-- **Calling through.** A call of an ordinary method that has a body, for which a wrangler that calls
through has no substitute, comes to what the declared body comes to, one call deeper on the same
machine, converted if the return type is primitive. The effects are those of the body, and the
machine is left as the body leaves it, with the two arrays of the record set in where the heap ended.
Where there is no room for one more call, both fail with that, and have no effects.

No array that the machine refers to is missing from it, and after the call that is so again. -/
theorem comesTo_entry_iff_calledThrough (hc : m.Intercepts c file file' h)
    (hverify : file.verify = .ok ()) (hverify' : file'.verify = .ok ()) (hdistinct : file.Distinct)
    (hunclaimed : file.Unclaimed) {w : Wrangler} (hwrangler : handlers h = w.handler)
    (hthrough : w.options.callThrough = true) (hindirect : w.direct = false)
    (hbinding : w.binding? file.name = none) (hd : d ∈ file.methods)
    (hinit : d.name ≠ constructorName) (hclinit : d.name ≠ staticInitializerName)
    (hcode : d.code ≠ []) (hunique : ∀ e ∈ file.methods, e.ReadsLike d → e = d)
    (hsignature : d.signature = .ok signature)
    (hargs : args.length = signature.arity + (!d.isStatic).toNat)
    (hmarker : d.isStatic = false → ∃ o slot, m.marker? c (d.receiverOf args) = some (o, slot, .null))
    (hclosed : m.Closed) (hwithin : ∀ v ∈ args, v.Within m.heap.arrays.size) {s : Inset}
    (hs : s = m.recordInset (d.callOf c signature args))
    (hhandlers : ∀ ref, (handlers ref).IgnoresNumbers m.heap.arrays.size) {entry body : Nat}
    (hentry : (m.cls c).declaredMethod? d.name d.descriptor = some entry)
    (hbody : (m.cls c).declaredMethod? (directMethodName file.name d.name) d.descriptor =
      some body) :
    (m.depth < m.maxDepth → ∀ r m',
      ComesTo (fun n => executeWith handlers n c entry args) m (r, m') ↔
        ∃ r₀ m₀, ComesTo (fun n => executeWith handlers n c body args >>= signature.unboxed)
            (m.atDepth (m.depth + 1)) (r₀, m₀) ∧
          r = s.result s.value r₀ ∧ m' = (s.machine m₀).atDepth m.depth) ∧
    (m.maxDepth ≤ m.depth →
      ComesTo (fun n => executeWith handlers n c entry args) m (.error .stackOverflow, m) ∧
        ComesTo (fun n => executeWith handlers n c body args) (m.atDepth (m.depth + 1))
          (.error .stackOverflow, m.atDepth (m.depth + 1))) ∧
    ∀ r m', ComesTo (fun n => executeWith handlers n c entry args) m (r, m') →
      m'.Closed ∧ AnswersWithin m'.heap.arrays.size r := by
  subst hs
  obtain ⟨j, hj⟩ := List.getElem?_of_mem hd
  have hname : Instrument.bodyName file.name d.name = directMethodName file.name d.name := by
    rw [Instrument.bodyName, if_neg hinit, if_neg hclinit]
  rw [hc.declaredMethod?_entry hunclaimed hdistinct hj hclinit] at hentry
  rw [← hname, hc.declaredMethod?_body hunclaimed hdistinct hj] at hbody
  obtain rfl : file.methods.length + j = entry := Option.some.inj hentry
  obtain rfl : j = body := Option.some.inj hbody
  refine ⟨fun hdepth r m' => ?_, fun hdepth => hc.comesTo_stackOverflow hverify hverify' hj hinit
    hclinit hcode hsignature hargs hdepth, ?_⟩
  · rw [hc.comesTo_entry_iff_recorded hverify hverify' hdistinct hunclaimed hwrangler hthrough
      hindirect hbinding hj hinit hclinit hcode hunique hsignature hargs hmarker hdepth,
      (hclosed.atDepth (m.depth + 1)).recorded_eq]
    let s := m.recordInset (d.callOf c signature args)
    have hiff := Inset.comesTo_iff (s := s) (m := m.atDepth (m.depth + 1))
      (fun n => Inset.executeUnboxed_carries (fun ref => hhandlers ref s (Nat.le_refl _)) n c j hwithin
        signature) (Nat.le_refl _)
    constructor
    · rintro ⟨m'', hm'', rfl⟩
      obtain ⟨⟨r₀, m₀⟩, hm₀, heq⟩ := (hiff _).1 hm''
      obtain ⟨rfl, rfl⟩ := Prod.mk.inj heq
      exact ⟨r₀, m₀, hm₀, rfl, rfl⟩
    · rintro ⟨r₀, m₀, hm₀, rfl, rfl⟩
      exact ⟨_, (hiff _).2 ⟨_, hm₀, rfl⟩, rfl⟩
  · rintro r m' ⟨_, hrun⟩
    exact hclosed.of_execute hhandlers hwithin hrun

end CallThrough

/-- A shadow that stands in for a class other than that of the echo. -/
def pokeShadow : Shadow where
  name := "Poke"
  methods := [⟨"poke", none, false, Script.body "Poke" .receiver⟩]
  staticInitializer? := some (Script.initializer "Poke" .perform)

/-- A wrangler that calls through, and has a shadow for another class; all other handlers are
recorders. -/
def throughHandlers : Handlers := fun ref =>
  if ref.index = 0 then ((Wrangler.new { callThrough := true }).bind "t.Poke" pokeShadow).handler
  else ({} : Recorder).handler

/-- None of these handlers goes by the numbers of arrays. -/
theorem throughHandlers_carries (s : Inset) (ref : HandlerRef) :
    s.CarriesHandler (throughHandlers ref) := by
  unfold throughHandlers
  split
  · refine Inset.wrangler_carries fun b hb => ?_
    obtain rfl := List.mem_singleton.1 hb
    refine ⟨fun m hm call => ?_, ?_⟩
    · obtain rfl := List.mem_singleton.1 hm
      exact Inset.script_carries "Poke" .receiver call
    · rintro _ ⟨⟩ c
      exact Inset.scriptInitializer_carries "Poke" .perform c
  · exact Inset.recorder_carries _

/-- The machine with the echo has no arrays. -/
theorem echoMachine_closed : echoMachine.Closed where
  objects := by decide +kernel
  arrays := by decide +kernel
  defaults := by decide +kernel
  statics := by decide +kernel
  journal e he := absurd he (Array.not_mem_empty e)

/-- A wrangler that calls through has an object echo three, by way of a record. -/
theorem echoMachine_comesTo_three_through :
    ComesTo (fun n => executeWith throughHandlers n ⟨0⟩ 1 [.object ⟨0⟩, .int 3]) echoMachine
      (.ok (.int 3), echoMachine.recorded echoCall) := by
  have hunique : ∀ e ∈ echoFile.methods, e.ReadsLike echoFile.methods[0] → e = echoFile.methods[0] :=
    fun e he _ => List.mem_singleton.1 he
  have hargs : [Value.object ⟨0⟩, .int 3].length =
      MethodDesc.arity ⟨[.int], .int⟩ + (!echoFile.methods[0].isStatic).toNat := by decide +kernel
  obtain ⟨hentry, hbody, hmarker⟩ := echoMachine_members
  have hreceiver : echoFile.methods[0].receiverOf [.object ⟨0⟩, .int 3] = .object ⟨0⟩ := rfl
  have hwithin : ∀ v ∈ [Value.object ⟨0⟩, .int 3], v.Within echoMachine.heap.arrays.size := by
    decide +kernel
  have hwrangler : throughHandlers ⟨0⟩ =
      ((Wrangler.new { callThrough := true }).bind "t.Poke" pokeShadow).handler := rfl
  obtain ⟨hcalls, -⟩ := comesTo_entry_iff_calledThrough echoMachine_intercepts echoFile_verify.1
    echoFile_verify.2 echoFile_distinct echoFile_unclaimed hwrangler rfl rfl (by decide +kernel)
    (List.getElem_mem (Nat.zero_lt_one)) (by decide +kernel) (by decide +kernel)
    (by decide +kernel) hunique echoFile_signature hargs (fun _ => ⟨_, _, hreceiver ▸ hmarker⟩)
    echoMachine_closed hwithin rfl (fun ref s _ => throughHandlers_carries s ref) hentry hbody
  refine (hcalls (by decide +kernel) _ _).2
    ⟨.ok (.int 3), echoMachine.atDepth 1, ⟨3, by decide +kernel⟩, rfl, ?_⟩
  exact echoMachine_closed.recorded_eq echoCall

end Interpose
