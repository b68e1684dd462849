import Interpose.Proofs.Fuel
import Interpose.Proofs.Methods
import Interpose.Proofs.StubRuns
/-!
# The halves of a method, loaded

Behind the name of an intercepted method stands a stub, behind an opening if the method is a
constructor. It can be entered even if the method itself cannot: its flags do not say that it is
native or abstract, and all the values that are handed over have a place among its locals.

The other half is the declared body. Its pool has grown, which makes no difference to it.

## Main definitions

* `StubTarget.Entry`: a prepared method that is a stub behind an opening

## Main results

* `Machine.Intercepts.exists_entry`, `Machine.Intercepts.exists_body`: the halves of an ordinary method
* `StubTarget.Entry.obstacle?_eq`: entering a stub
-/

namespace Interpose

/-! ### Bodies whose pool has grown -/

section Grown

variable {pool pool' : Pool} {keeps : List Value → Prop}

theorem View.Accepts.of_extends {i : Instruction} {effect : StackEffect}
    (h : Accepts pool keeps i effect) (hp : pool.Extends pool') : Accepts pool' keeps i effect where
  effect_eq := hp.stackEffect? h.effect_eq
  string index hi := by
    obtain ⟨s, hs⟩ := Option.isSome_iff_exists.1 (h.string index hi)
    rw [hp.string? hs]
    rfl
  cls index hi := by
    obtain ⟨name, hn⟩ := Option.isSome_iff_exists.1 (h.cls index hi)
    rw [hp.class? hn]
    rfl
  field access index hi := by
    obtain ⟨f, hf⟩ := Option.isSome_iff_exists.1 (h.field access index hi)
    rw [hp.field? hf]
    rfl
  read := h.read
  write := h.write
  tag := h.tag

theorem LoadedMethod.WellTyped.of_extends {m : LoadedMethod} {depthAt : Nat → Option Nat}
    (h : m.WellTyped pool depthAt) (hp : pool.Extends pool') : m.WellTyped pool' depthAt := by
  refine ⟨h.room, h.start, fun p n hn => ?_⟩
  obtain ⟨i, effect, hi, haccepts, hrest⟩ := h.typed p n hn
  exact ⟨i, effect, hi, haccepts.of_extends hp, hrest⟩

end Grown

/-- A body without a result answers null. -/
theorem LoadedMethod.WellTyped.eq_null {handlers : Handlers} {limit : Limit}
    {start m m' : Machine} {c : ClassRef} {k : LoadedMethod} {depthAt : Nat → Option Nat}
    (h : k.WellTyped (start.cls c).constants depthAt) (hvoid : k.signature.ret.isVoid = true)
    (hc : start.classes.Has c) (hm : start.Extends m) {args : List Value}
    (hargs : args.length = k.argumentCount) {owner : String} {fuel steps : Nat} {v : Value}
    (hrun : Frame.run handlers (executeBy limit handlers fuel) owner k steps
      (.enter c k.maxLocals.toNat args) m = some (.ok v, m')) : v = .null := by
  let S := Simulation.exactly.since start
  let V : View S := LoadedMethod.activation Simulation.exactly start c hc k
  have hexecute : S.ExecuteSim (executeBy limit handlers fuel) (executeBy limit handlers fuel) :=
    (Simulation.executeBy_exactly limit handlers (Nat.le_refl fuel)).since start
  have hsim : S.Sim (V.Results k.signature.ret.isVoid)
      (Frame.run handlers (executeBy limit handlers fuel) owner k steps
        (.enter c k.maxLocals.toNat args))
      (Frame.run handlers (executeBy limit handlers fuel) owner k steps
        (V.shift (.enter c k.maxLocals.toNat args))) :=
    View.run_sim hexecute ((Simulation.handlersSim_exactly handlers).since start) h.carries
      (fun hk => absurd trivial hk) trivial (.inl rfl) (h.placed hargs)
  rw [V.shift_of_empty ⟨rfl, rfl⟩] at hsim
  have ho := hsim m m ⟨rfl, hm⟩
  rw [hrun] at ho
  exact ho.1.2 trivial hvoid

/-- The same of an execution, which enters the body if it does anything. -/
theorem LoadedMethod.WellTyped.eq_null_of_executeBy {handlers : Handlers} {limit : Limit}
    {m m' : Machine} {c : ClassRef} {i : Nat} {k : LoadedMethod} {depthAt : Nat → Option Nat}
    (h : k.WellTyped (m.cls c).constants depthAt) (hk : (m.cls c).methods[i]? = some k)
    (hvoid : k.signature.ret.isVoid = true) {args : List Value} {fuel : Nat} {v : Value}
    (hrun : executeBy limit handlers fuel c i args m = some (.ok v, m')) : v = .null := by
  cases fuel with
  | zero => cases hrun
  | succ fuel =>
    have hc : m.classes.Has c := ClassTable.has_of_get_ne fun heq => by
      rw [Machine.cls, heq] at hk
      cases hk
    rw [executeBy, Run.enterBy_apply hk] at hrun
    rcases hverdict : limit.verdict (k.obstacle? (m.cls c).name args m) with _ | _ | e <;>
      rw [hverdict] at hrun
    · cases hrun
    · dsimp only at hrun
      rw [Run.deeper_apply] at hrun
      split at hrun
      · cases hrun
      · rename_i r m'' hbody
        cases hrun
        obtain ⟨-, -, hargs⟩ := LoadedMethod.of_verdict hverdict
        exact h.eq_null hvoid hc (m.extends_atDepth _) hargs hbody
    · cases hrun

/-- Answering null in place of no result changes nothing. -/
theorem LoadedMethod.WellTyped.executeBy_answer {handlers : Handlers} {limit : Limit}
    {m : Machine} {c : ClassRef} {i : Nat} {k : LoadedMethod} {depthAt : Nat → Option Nat}
    (h : k.WellTyped (m.cls c).constants depthAt) (hk : (m.cls c).methods[i]? = some k)
    {args : List Value} {fuel : Nat} :
    (executeBy limit handlers fuel c i args >>= fun v =>
      pure (if k.signature.ret.isVoid then .null else v)) m =
        executeBy limit handlers fuel c i args m := by
  rw [Run.bind_apply]
  rcases hx : executeBy limit handlers fuel c i args m with _ | ⟨_ | v, m'⟩
  · rfl
  · rfl
  · have hv : (if k.signature.ret.isVoid then Value.null else v) = v := by
      split
      · exact (h.eq_null_of_executeBy hk ‹_› hx).symm
      · rfl
    dsimp only
    rw [hv]
    rfl

/-! ### Flags -/

namespace Access

variable {flags bits : Access} {f : Modifier}

/-- A flag that is not taken away stays. -/
theorem has_without (h : ~~~bits &&& f.bit = f.bit) : has (without flags bits) f = has flags f := by
  rw [has, without, UInt16.and_assoc, h, has]

theorem has_without_eq_false (h : ~~~bits &&& f.bit = 0) : has (without flags bits) f = false := by
  rw [has, without, UInt16.and_assoc, h]
  show (flags &&& 0 != 0) = false
  rw [UInt16.and_zero]
  rfl

/-- A flag stays what it is when another is added. -/
theorem has_or (h : bits &&& f.bit = 0) : has (flags ||| bits) f = has flags f := by
  have hor : (flags ||| bits) &&& f.bit = flags &&& f.bit := by
    refine UInt16.toBitVec_inj.1 ?_
    have hbits : bits.toBitVec &&& f.bit.toBitVec = 0#16 := congrArg UInt16.toBitVec h
    show (flags.toBitVec ||| bits.toBitVec) &&& f.bit.toBitVec = flags.toBitVec &&& f.bit.toBitVec
    rw [BitVec.and_or_distrib_right, hbits, BitVec.or_zero]
  rw [has, hor, has]

end Access

/-! ### Stubs, prepared -/

/-- Nothing but the depth of calls is in the way of a method with a body that is handed what it
takes. -/
theorem LoadedMethod.obstacle?_eq {k : LoadedMethod} {args : List Value} (hn : k.isNative = false)
    (ha : k.isAbstract = false) (hargs : args.length = k.argumentCount) (owner : String)
    (m : Machine) :
    k.obstacle? owner args m = if m.maxDepth ≤ m.depth then some .stackOverflow else none := by
  unfold LoadedMethod.obstacle?
  rw [hn, ha]
  simp only [hargs, Bool.false_eq_true, if_false, ne_eq, not_true_eq_false]

namespace StubTarget

/-- A prepared method that is a stub behind an opening, with no reason not to be entered. -/
structure Entry (t : StubTarget) (pool : Pool) (opening : List Instruction) (k : LoadedMethod) :
    Prop where
  native : k.isNative = false
  abstract : k.isAbstract = false
  static : k.isStatic = t.isStatic
  signature : k.signature = t.signature
  begins : ∀ p : Nat, p < opening.length → k.code[p]? = opening[p]?
  items : ∃ place code, Item.Laid pool place code opening.length t.items ∧
    ∀ (q : Nat) i, code[q]? = some i → k.code[q]? = some i

/-- What was assembled from a straight opening and a stub, prepared. -/
theorem entry_of_assemble {t : StubTarget} {pool pool' pool'' : Pool}
    {opening code : List Instruction}
    (hassemble : Item.assemble pool (opening.map .emit ++ t.items) = .ok (code, pool'))
    (hgrows : pool'.Extends pool'') (hfits : pool''.Fits) (harity : t.signature.arity ≤ 65535)
    (hstraight : ∀ i ∈ opening, i.target? = none)
    (htags : ∀ tag, .unbox tag ∈ opening → (TypeDesc.ofTag? tag).isSome)
    {owner : String} {d : MethodDef} {k : LoadedMethod}
    (hdefine : LoadedMethod.define owner d = .ok k) (hcode : d.code = Code.encode code)
    (hsignature : k.signature = t.signature) (hn : k.isNative = false) (ha : k.isAbstract = false)
    (hstatic : k.isStatic = t.isStatic) : t.Entry pool'' opening k := by
  obtain ⟨hdecode, hbegins, place, hlaid⟩ :=
    exists_laid_of_assemble t hassemble (hfits.of_extends hgrows) harity hstraight htags
  obtain ⟨-, hread, -, -⟩ := LoadedMethod.of_define hdefine
  rw [hcode] at hread
  obtain rfl : k.code.toList = code := Except.ok.inj (hread.symm.trans hdecode)
  have hget : ∀ q : Nat, k.code[q]? = k.code.toList[q]? := fun q => Array.getElem?_toList.symm
  exact {
    native := hn
    abstract := ha
    static := hstatic
    signature := hsignature
    begins := fun q hq => (hget q).trans (hbegins q hq)
    items := ⟨place, _, hlaid.of_extends hgrows, fun q i hi => (hget q).trans hi⟩ }

section Entry

variable {t : StubTarget} {pool pool' : Pool} {opening code : List Instruction} {k : LoadedMethod}
variable {m : Machine} {c : ClassRef} {args : List Value}

theorem Entry.argumentCount_eq (he : t.Entry pool opening k) :
    k.argumentCount = t.signature.arity + (!t.isStatic).toNat := by
  rw [LoadedMethod.argumentCount, he.signature, he.static]

/-- The stub's locals have room for what is handed over. -/
theorem toNat_locals (h : t.signature.arity + (!t.isStatic).toNat ≤ 65535) :
    t.locals.toNat = t.signature.arity + (!t.isStatic).toNat := by
  rw [locals, UInt16.toNat_add, toNat_firstArgument, UInt16.toNat_ofNat',
    Nat.mod_eq_of_lt (by omega : t.signature.arity < 2 ^ 16), Nat.mod_eq_of_lt (by omega),
    Nat.add_comm]

/-- What is handed over to a stub when it is entered. -/
theorem Entry.handed (he : t.Entry pool opening k) (hargs : args.length = k.argumentCount)
    (hfits : args.length ≤ 65535) :
    t.Handed (Frame.enter c k.maxLocals.toNat args).locals args where
  length := hargs.trans he.argumentCount_eq
  fits := hfits
  locals _ hi := List.getElem?_append_left hi

/-- **Entering a stub.** Nothing is in the way of a call but the depth of calls. -/
theorem Entry.obstacle?_eq (he : t.Entry pool opening k) (hargs : args.length = k.argumentCount)
    (owner : String) (m : Machine) :
    k.obstacle? owner args m = if m.maxDepth ≤ m.depth then some .stackOverflow else none :=
  LoadedMethod.obstacle?_eq he.native he.abstract hargs owner m

/-! ### What a stub comes to -/

variable {h : HandlerRef} {handlers : Handlers} {locals stack : List Value}

/-- **Direct calls.** Behind its opening, a stub clears the receiver's marker, if there is need, and
executes the declared body. -/
theorem Entry.run_direct (he : t.Entry pool opening k) (hs : t.Served pool m c h)
    (ha : t.Handed locals args) (hm : t.Marked m c args) (hd : t.alwaysDispatch = false)
    (hdirect : m.marked c (t.receiverOf args) = true ∨
      (handlers h).callsDirectly m (t.receiverOf args) = true)
    {found : ClassRef × Nat}
    (hfound : m.classes.resolveMethod? c t.directName t.descriptor = some found)
    (hname : t.directName ≠ constructorName)
    (hparse : MethodDesc.parse t.descriptor = .ok t.signature)
    (hbegun : t.isStatic = true → (m.cls c).state ≠ .uninitialized) :
    ∃ n, ∀ execute owner fuel,
      Frame.run handlers execute owner k (fuel + n) ⟨c, opening.length, locals, stack⟩ m =
        (execute found.1 found.2 args >>= fun v =>
          pure (if t.signature.ret.isVoid then .null else v))
          (m.clearMarker c (t.receiverOf args)) := by
  obtain ⟨place, code, hlaid, hcode⟩ := he.items
  obtain ⟨n, hn⟩ := hs.walks_direct ha hm hcode hlaid hd hdirect
  have hobject : t.isStatic = false → ∃ o, t.receiverOf args = .object o := by
    intro hstatic
    obtain ⟨⟨o, slot, v⟩, hmarker⟩ := Option.isSome_iff_exists.1 (hm hstatic)
    exact ⟨o, (Machine.marker?_eq_some hmarker).1⟩
  -- Clearing the marker makes no difference to the rest.
  have hfound' : (m.clearMarker c (t.receiverOf args)).classes.resolveMethod? c t.directName
      t.descriptor = some found := by
    rw [Machine.classes_clearMarker]
    exact hfound
  have hbegun' : t.isStatic = true →
      ((m.clearMarker c (t.receiverOf args)).cls c).state ≠ .uninitialized := by
    rw [Machine.cls_clearMarker]
    exact hbegun
  obtain ⟨-, -, -, hblock, -⟩ := laid_direct hlaid hd
  obtain ⟨n', hn'⟩ := (hs.clearMarker (t.receiverOf args)).run_direct ha hobject hcode hblock
    hfound' hname hparse hbegun'
  refine ⟨n' + n, fun execute owner fuel => ?_⟩
  rw [← Nat.add_assoc, hn, hn']

/-- **Intercepted calls.** Behind its opening, a stub hands the call to the handler. -/
theorem Entry.run_handler (he : t.Entry pool opening k) (hs : t.Served pool m c h)
    (ha : t.Handed locals args)
    (hhandler : t.alwaysDispatch = true ∨ t.Marked m c args ∧
      m.marked c (t.receiverOf args) = false ∧
      (handlers h).callsDirectly m (t.receiverOf args) = false) :
    ∃ n, ∀ execute owner fuel,
      Frame.run handlers execute owner k (fuel + n) ⟨c, opening.length, locals, stack⟩ m =
        (do
          let _ ← Run.allocateArray (t.signature.paramNames.map Value.text).toArray
          let _ ← Run.allocateArray (t.argumentsOf args).toArray
          let v ← ((handlers h).methodInvoked (t.callOf c args)).run execute
          t.signature.answer v) m := by
  obtain ⟨place, code, hlaid, hcode⟩ := he.items
  obtain ⟨n, hn⟩ := hs.walks_handler ha hcode hlaid hhandler
  obtain ⟨n', hn'⟩ := hs.run_handler ha hcode (laid_handler hlaid).2
  refine ⟨n' + n, fun execute owner fuel => ?_⟩
  rw [← Nat.add_assoc, hn, hn']

end Entry

end StubTarget

/-! ### The halves of an ordinary method -/

namespace Instrument

variable {pool pool' : Pool} {className : String} {superName : Option String}
variable {d body entry : MethodDef}

theorem splitMethod_ordinary (h : splitMethod pool className superName d = .ok (body, entry, pool'))
    (hinit : d.name ≠ constructorName) (hclinit : d.name ≠ staticInitializerName) :
    ∃ signature code, d.signature = .ok signature ∧
      Item.assemble pool (entryTarget className d signature).items = .ok (code, pool') ∧
      entry = ⟨d.name, d.descriptor,
        Access.without d.access (Modifier.native.bit ||| Modifier.abstract.bit), d.exceptions,
        (entryTarget className d signature).locals, Code.encode code⟩ ∧
      body = { d with name := directMethodName className d.name } := by
  unfold splitMethod at h
  rw [if_neg hinit, if_neg hclinit] at h
  obtain ⟨⟨stub, p⟩, hstub, h⟩ := Results.bind_eq_ok h
  cases h
  obtain ⟨signature, code, hsignature, hcode, rfl⟩ := entryMethod_eq_ok hstub
  exact ⟨signature, code, hsignature, hcode, rfl, rfl⟩

end Instrument

namespace Machine.Intercepts

variable {m : Machine} {c : ClassRef} {file file' : ClassFile} {h : HandlerRef}
variable {j : Nat} {d : MethodDef}

/-- The values that are handed over to a method have room among its locals, which have numbers of
sixteen bits. -/
theorem argumentCount_le (hc : m.Intercepts c file file' h) (hverify' : file'.verify = .ok ())
    {i : Nat} {k : LoadedMethod} (hk : (m.cls c).methods[i]? = some k) (hn : k.isNative = false)
    (ha : k.isAbstract = false) : k.argumentCount ≤ 65535 := by
  have hi : i < file'.methods.length := hc.length_methods ▸ (List.getElem?_eq_some_iff.1 hk).1
  obtain ⟨k', hk', hdefine⟩ := hc.exists_method (List.getElem?_eq_getElem hi)
  obtain rfl : k' = k := Option.some.inj (hk'.symm.trans hk)
  have hcheck := ClassFile.checkMethod_of_verify hverify' (List.getElem_mem hi)
  obtain ⟨depthAt, htyped⟩ := LoadedMethod.exists_wellTyped_of_define hcheck hdefine hn ha
  have hlt := k'.maxLocals.toNat_lt
  have hroom := htyped.room
  omega

/-- The stub behind the name of an ordinary method. -/
theorem exists_entry (hc : m.Intercepts c file file' h) (hd : file.methods[j]? = some d)
    (hinit : d.name ≠ constructorName) (hclinit : d.name ≠ staticInitializerName) :
    ∃ k, (m.cls c).methods[file.methods.length + j]? = some k ∧ d.signature = .ok k.signature ∧
      k.isNative = false ∧ k.isAbstract = false ∧
      (k.signature.arity ≤ 65535 →
        (Instrument.entryTarget file.name d k.signature).Entry file'.constants [] k) := by
  obtain ⟨bodies, entries, added, pool, hfile⟩ :=
    ClassFile.exists_instrumented_of_transform hc.transform
  obtain ⟨body, entry, p, p', -, hentry, -, hp', hsplit⟩ := hfile.exists_halves hd
  obtain ⟨signature, code, hsignature, hcode, rfl, -⟩ :=
    Instrument.splitMethod_ordinary hsplit hinit hclinit
  obtain ⟨k, hk, hdefine⟩ := hc.exists_method hentry
  obtain ⟨hsignature', -, haccess, -⟩ := LoadedMethod.of_define hdefine
  obtain rfl : k.signature = signature := Except.ok.inj (hsignature'.symm.trans hsignature)
  have hn : k.isNative = false := by
    rw [LoadedMethod.isNative, haccess]
    exact Access.has_without_eq_false (by decide)
  have ha : k.isAbstract = false := by
    rw [LoadedMethod.isAbstract, haccess]
    exact Access.has_without_eq_false (by decide)
  have hstatic : k.isStatic = d.isStatic := by
    rw [LoadedMethod.isStatic, haccess]
    exact Access.has_without (by decide)
  -- An entry is a stub behind an opening of no instructions.
  have hassemble : Item.assemble p (([] : List Instruction).map .emit ++
      (Instrument.entryTarget file.name d k.signature).items) = .ok (code, p') := hcode
  exact ⟨k, hk, hsignature, hn, ha, fun harity => StubTarget.entry_of_assemble hassemble hp' hc.fits
    harity nofun nofun hdefine rfl rfl hn ha hstatic⟩

/-- What a stub of the class relies on. -/
theorem served (hc : m.Intercepts c file file' h) {t : StubTarget}
    (ht : t.className = file.name) : t.Served file'.constants m c h where
  name := hc.name.trans ht.symm
  constants := hc.constants
  handler := hc.handler

/-- The declared body of an ordinary method. -/
theorem exists_body (hc : m.Intercepts c file file' h) (hverify : file.verify = .ok ())
    (hd : file.methods[j]? = some d) (hinit : d.name ≠ constructorName)
    (hclinit : d.name ≠ staticInitializerName) (hbody : d.code ≠ []) :
    ∃ k depthAt, (m.cls c).methods[j]? = some k ∧ d.signature = .ok k.signature ∧
      k.isStatic = d.isStatic ∧ d.isNative = false ∧ k.WellTyped (m.cls c).constants depthAt := by
  obtain ⟨bodies, entries, added, pool, hfile⟩ :=
    ClassFile.exists_instrumented_of_transform hc.transform
  obtain ⟨body, entry, p, p', hbody', -, hp, hp', hsplit⟩ := hfile.exists_halves hd
  have hgrows := (Instrument.halves_of_splitMethod hsplit).grows
  obtain ⟨signature, code, -, -, -, rfl⟩ := Instrument.splitMethod_ordinary hsplit hinit hclinit
  obtain ⟨k, hk, hdefine⟩ := hc.exists_method hbody'
  have hcheck := ClassFile.checkMethod_of_verify hverify (List.mem_of_getElem? hd)
  obtain ⟨hn, ha⟩ := Verifier.flags_of_checkMethod hcheck hbody
  obtain ⟨signature', code', hsignature, -, rfl⟩ := LoadedMethod.define_eq_ok hdefine
  obtain ⟨depthAt, htyped⟩ := LoadedMethod.exists_wellTyped_of_define hcheck hdefine hn ha
  refine ⟨_, depthAt, hk, hsignature, rfl, hn, ?_⟩
  rw [hc.constants]
  exact htyped.of_extends (hp.trans (hgrows.trans hp'))

end Machine.Intercepts

end Interpose
