import Interpose.Proofs.CallDepths
import Interpose.Proofs.Constructors
import Interpose.Proofs.DirectCalls
/-!
# Split constructors

A constructor that has been split runs in two frames, its opening in the one and the rest in the
other, one call deeper. It might as well have run in one. At the cut, the frame of the opening has
the locals that the rest's own frame has, and whatever the opening has left on its stack stays below
the operands of the rest, which do not reach down to it.

In between stands the stub, which resets the receiver's marker if that holds an instance of the
class. So it takes a marker that does not, once the opening has run. Nothing but code that names the
marker can tell the difference.

## Main definitions

* `LoadedMethod.runIn`: a method, run as one of a class
* `Machine.LeavesUnmarked`: an opening behind which the receiver's marker is not set

## Main results

* `Machine.Constructs.comesTo_body_iff`: the rest in its own frame, and in that of the opening
* `comesTo_constructor_iff_oneFrame`: the split constructor, and the constructor itself
-/

namespace Interpose

/-- Runs a method as if it were one of a class: one call deeper, in a frame of the class. -/
def LoadedMethod.runIn (k : LoadedMethod) (limit : Limit) (handlers : Handlers) (c : ClassRef)
    (owner : String) (args : List Value) (fuel : Nat) : Run Value :=
  Run.deeper (Frame.run handlers (executeBy limit handlers fuel) owner k fuel
    (.enter c k.maxLocals.toNat args))

/-- Where the opening of a constructor comes to its end, the receiver's marker does not hold an instance
of the class. -/
def Machine.LeavesUnmarked (m : Machine) (handlers : Handlers) (c : ClassRef)
    (opening : List Instruction) (f : Frame) (receiver : Value) : Prop :=
  ∀ f' m', ComesTo (fun n => Frame.advance handlers (executeBy .lifted handlers n) opening f) m
    (.ok f', m') → m'.marked c receiver = false

/-! ### The rest of a constructor -/

section Rest

variable {handlers : Handlers} {m : Machine} {c : ClassRef} {file file' : ClassFile}
variable {j : Nat} {d : MethodDef} {code rest : List Instruction} {k b whole : LoadedMethod}

/-- What stands under the name of a constructor's body is the rest of it. -/
theorem Machine.Constructs.of_body (hk : m.Constructs c file file' j d code rest k b) :
    b.code = rest.toArray ∧ b.maxLocals = d.maxLocals ∧ b.signature = k.signature ∧
      b.isStatic = d.isStatic := by
  obtain ⟨signature, code', hsignature, hcode', rfl⟩ := LoadedMethod.define_eq_ok hk.bodyDefined
  obtain rfl : rest = code' :=
    Except.ok.inj ((hk.parts.decode_rest hk.decode).symm.trans hcode')
  exact ⟨rfl, rfl, Except.ok.inj (hsignature.symm.trans hk.signature), rfl⟩

/-- A constructor, prepared. -/
theorem Machine.Constructs.of_whole (hk : m.Constructs c file file' j d code rest k b)
    (hwhole : LoadedMethod.define file.name d = .ok whole) :
    whole.code = code.toArray ∧ whole.maxLocals = d.maxLocals := by
  obtain ⟨signature, code', -, hcode', rfl⟩ := LoadedMethod.define_eq_ok hwhole
  obtain rfl : code = code' := Except.ok.inj (hk.decode.symm.trans hcode')
  exact ⟨rfl, rfl⟩

variable {m₁ : Machine} {args : List Value}

/-- With any amount of fuel, the rest in a frame of its own, one call deeper, does what it does behind
the opening. The view moves it there and puts below its operands what the opening has left. -/
theorem Machine.Constructs.outcome_body (hk : m.Constructs c file file' j d code rest k b)
    (hwhole : LoadedMethod.define file.name d = .ok whole)
    (hhandlers : ∀ ref, (handlers ref).IgnoresDepth) (hc : m₁.classes.Has c)
    (hconstants : (m₁.cls c).constants = file'.constants) (hargs : args.length = b.argumentCount)
    (owner : String) (stack : List Value) (fuel : Nat) :
    Simulation.acrossDepths.Outcome (m₁.atDepth (m₁.depth + 1)) Eq
      (Frame.run handlers (executeBy .lifted handlers fuel) owner b fuel
        (.enter c b.maxLocals.toNat args) (m₁.atDepth (m₁.depth + 1)))
      (Frame.run handlers (executeBy .lifted handlers fuel) owner whole fuel
        ⟨c, (file.openingOf d).length, (Frame.enter c d.maxLocals.toNat args).locals, stack⟩ m₁) := by
  obtain ⟨hbcode, hblocals, -, -⟩ := hk.of_body
  obtain ⟨hcode, -⟩ := hk.of_whole hwhole
  obtain ⟨depthAt, htyped⟩ := hk.bodyTyped
  let start := m₁.atDepth (m₁.depth + 1)
  let V : View (Simulation.acrossDepths.since start) := .active .acrossDepths start c hc
    (·.length = b.maxLocals.toNat) (file.openingOf d).length stack
  have hcarries : V.Carries b.code whole.code depthAt b.signature.ret.isVoid := by
    refine ⟨fun _ => ?_, fun _ p n i _ hi => ?_, fun h => absurd trivial h⟩
    · show Typed (m₁.cls c).constants _ _ _ _
      rw [hconstants]
      exact htyped.typed
    · rw [hbcode, List.getElem?_toArray] at hi
      show whole.code[p + (file.openingOf d).length]? = _
      rw [hcode, List.getElem?_toArray, Nat.add_comm, hk.parts.ends, hi]
      rfl
  have hplaced : V.Placed depthAt (.enter c b.maxLocals.toNat args) := fun _ =>
    ⟨0, htyped.start, rfl, rfl, Frame.length_enter_locals (hargs ▸ htyped.room), rfl⟩
  have hshift : V.shift (.enter c b.maxLocals.toNat args) =
      ⟨c, (file.openingOf d).length, (Frame.enter c d.maxLocals.toNat args).locals, stack⟩ := by
    rw [hblocals]
    show (⟨c, 0 + (file.openingOf d).length, _, [] ++ stack⟩ : Frame) = _
    rw [Nat.zero_add]
    rfl
  have hrun : (Simulation.acrossDepths.since start).Sim (V.Results b.signature.ret.isVoid)
      (Frame.run handlers (executeBy .lifted handlers fuel) owner b fuel
        (.enter c b.maxLocals.toNat args))
      (Frame.run handlers (executeBy .lifted handlers fuel) owner whole fuel
        (V.shift (.enter c b.maxLocals.toNat args))) :=
    View.run_sim ((Simulation.executeBy_acrossDepths hhandlers fuel).since start)
      ((Simulation.handlersSim_acrossDepths hhandlers).since start) hcarries
      (fun h => absurd trivial h) trivial (.inl rfl) hplaced
  rw [hshift] at hrun
  exact (hrun start m₁ ⟨rfl, .refl start⟩).of_since.mono fun _ _ h => h.1

/-- **The rest of a constructor.** In a frame of its own, and one call deeper, the rest comes to what it
comes to in the frame of the opening. -/
theorem Machine.Constructs.comesTo_body_iff (hk : m.Constructs c file file' j d code rest k b)
    (hwhole : LoadedMethod.define file.name d = .ok whole)
    (hhandlers : ∀ ref, (handlers ref).IgnoresDepth) (hc : m₁.classes.Has c)
    (hconstants : (m₁.cls c).constants = file'.constants) (hargs : args.length = b.argumentCount)
    (owner : String) (stack : List Value) {r : Except VmError Value} {m' : Machine} :
    (∃ m'', ComesTo (fun n => Frame.run handlers (executeBy .lifted handlers n) owner b n
        (.enter c b.maxLocals.toNat args)) (m₁.atDepth (m₁.depth + 1)) (r, m'') ∧
      m' = m''.atDepth m₁.depth) ↔
    ComesTo (fun n => Frame.run handlers (executeBy .lifted handlers n) owner whole n
      ⟨c, (file.openingOf d).length, (Frame.enter c d.maxLocals.toNat args).locals, stack⟩)
      m₁ (r, m') := by
  have houtcome := hk.outcome_body hwhole hhandlers hc hconstants hargs owner stack
  constructor
  · rintro ⟨m'', ⟨fuel, hfuel⟩, rfl⟩
    have ho := houtcome fuel
    dsimp only at hfuel
    rw [hfuel] at ho
    obtain ⟨n, hn, hrel, -, -⟩ := ho.exists_eq
    have hdepth : n.depth = m₁.depth := (evolves_of_run hn).depth
    rw [← hdepth, ← Simulation.acrossDepths.eq_atDepth hrel]
    exact ⟨fuel, hn⟩
  · rintro ⟨fuel, hfuel⟩
    have ho := houtcome fuel
    dsimp only at hfuel
    rw [hfuel] at ho
    obtain ⟨m'', hm'', hrel⟩ := ho.exists_left not_false
    have hdepth : m'.depth = m₁.depth := (evolves_of_run hfuel).depth
    refine ⟨m'', ⟨fuel, hm''⟩, ?_⟩
    rw [← hdepth]
    exact Simulation.acrossDepths.eq_atDepth hrel

end Rest

/-! ### The cut -/

/-- With the limit lifted, a method that has a body can be entered with as many values as it takes. -/
theorem LoadedMethod.verdict_lifted_eq {k : LoadedMethod} {args : List Value}
    (hn : k.isNative = false) (ha : k.isAbstract = false) (hargs : args.length = k.argumentCount)
    (owner : String) (m : Machine) :
    Limit.lifted.verdict (k.obstacle? owner args m) = some none := by
  rw [LoadedMethod.obstacle?_eq hn ha hargs]
  split <;> rfl

section Cut

variable {handlers : Handlers} {m m' : Machine} {c : ClassRef} {file file' : ClassFile}
variable {h : HandlerRef} {j : Nat} {d : MethodDef} {code rest : List Instruction}
variable {k b whole : LoadedMethod} {args : List Value} {r : Except VmError Value}

/-- At the cut, the stub resets the receiver's marker, and what the rest does is what it does in the
frame of the opening. -/
theorem Machine.Intercepts.comesTo_cut_iff (hc : m.Intercepts c file file' h)
    (hk : m.Constructs c file file' j d code rest k b) (hunclaimed : file.Unclaimed)
    (hd : file.Declares j d) (hinit : d.name = constructorName) (hstatic : d.isStatic = false)
    (hwhole : LoadedMethod.define file.name d = .ok whole)
    (hhandlers : ∀ ref, (handlers ref).IgnoresDepth)
    (hdirect : ∀ n v, (handlers h).callsDirectly n v = true) (hargs : m.MayCall c d args)
    (owner : String) (stack : List Value) :
    ComesTo (fun n => Frame.run handlers (executeBy .lifted handlers n) owner k n
        ⟨c, (file.openingOf d).length, (Frame.enter c d.maxLocals.toNat args).locals, stack⟩)
        m (r, m') ↔
      ComesTo (fun n => Frame.run handlers (executeBy .lifted handlers n) file.name whole n
        ⟨c, (file.openingOf d).length, (Frame.enter c d.maxLocals.toNat args).locals, stack⟩)
        (m.clearMarker c (d.receiverOf args)) (r, m') := by
  let t := Instrument.constructorTarget file.name d k.signature
  obtain ⟨-, hblocals, hbsignature, hbstatic⟩ := hk.of_body
  have hlength : args.length = k.signature.arity + 1 := by
    rw [hargs.length _ hk.signature, hstatic]
    rfl
  have hbargs : args.length = b.argumentCount := by
    rw [LoadedMethod.argumentCount, hbsignature, hbstatic, hstatic]
    exact hlength
  have hreceiver : t.receiverOf args = d.receiverOf args := by
    rw [MethodDef.receiverOf, hstatic]
    rfl
  have hhanded : t.Handed (Frame.enter c d.maxLocals.toNat args).locals args := by
    have hroom := hk.room
    have hlt := d.maxLocals.toNat_lt
    rw [← hk.entryLocals]
    exact hk.stub.handed (hlength.trans hk.stub.argumentCount_eq.symm) (by omega)
  have hmarked : t.Marked m c args := hargs.marked hc hunclaimed hstatic.symm
  have hfound : m.classes.resolveMethod? c t.directName t.descriptor = some (c, j) := by
    have hname : Instrument.bodyName file.name d.name = constructorBodyName := by
      rw [Instrument.bodyName, if_pos hinit]
    rw [← hc.resolveMethod?_bodyOf hunclaimed hd, hname]
    rfl
  obtain ⟨n, hn⟩ := hk.stub.run_direct (hc.served rfl) hhanded hmarked rfl (.inr (hdirect m _))
    hfound (show constructorBodyName ≠ constructorName by decide) hk.signature
    fun hstatic => absurd hstatic Bool.false_ne_true
  -- The machine that the body is called on.
  rw [hreceiver] at hn
  have hextends : m.Extends (m.clearMarker c (d.receiverOf args)) := Machine.evolves_clearMarker.classes
  have hk' := hk.of_extends hc.has hextends
  have hc' := hc.of_extends hextends
  obtain ⟨depthAt, htyped⟩ := hk.bodyTyped
  rw [← hc'.constants] at htyped
  have hanswer : ∀ fuel, Frame.run handlers (executeBy .lifted handlers (fuel + n)) owner k (fuel + n)
      ⟨c, (file.openingOf d).length, (Frame.enter c d.maxLocals.toNat args).locals, stack⟩ m =
        executeBy .lifted handlers (fuel + n) c j args
          (m.clearMarker c (d.receiverOf args)) := by
    intro fuel
    rw [hn, ← htyped.executeBy_answer hk'.body, hbsignature]
    rfl
  obtain ⟨hbnative, hbabstract⟩ : b.isNative = false ∧ b.isAbstract = false := by
    obtain ⟨-, -, hbaccess, -⟩ := LoadedMethod.of_define hk.bodyDefined
    rw [LoadedMethod.isNative, LoadedMethod.isAbstract, hbaccess]
    exact ⟨hk.native, hk.abstract⟩
  rw [comesTo_iff_of_eq (steady_run owner k _) (steady_execute c j args) hanswer,
    comesTo_executeBy_iff hk'.body (LoadedMethod.verdict_lifted_eq hbnative hbabstract hbargs _ _),
    hc'.name]
  exact hk'.comesTo_body_iff hwhole hhandlers hc'.has hc'.constants hbargs file.name stack

/-- A method that is run as one of a class comes to what its body comes to, one call deeper. -/
theorem LoadedMethod.comesTo_runIn_iff {limit : Limit} {owner : String} :
    ComesTo (k.runIn limit handlers c owner args) m (r, m') ↔
      ∃ m'', ComesTo (fun n => Frame.run handlers (executeBy limit handlers n) owner k n
          (.enter c k.maxLocals.toNat args)) (m.atDepth (m.depth + 1)) (r, m'') ∧
        m' = m''.atDepth m.depth := by
  refine comesTo_deeper.trans (exists_congr fun m'' => and_congr_right ?_)
  rintro ⟨fuel, hfuel⟩
  have hdepth : m''.depth = m.depth + 1 := (evolves_of_run hfuel).depth
  rw [hdepth, Nat.add_sub_cancel]

/-- **Split constructors, with the limit lifted.** -/
theorem Machine.Intercepts.comesTo_split_iff (hc : m.Intercepts c file file' h)
    (hk : m.Constructs c file file' j d code rest k b) (hunclaimed : file.Unclaimed)
    (hd : file.Declares j d) (hinit : d.name = constructorName) (hstatic : d.isStatic = false)
    (hwhole : LoadedMethod.define file.name d = .ok whole)
    (hhandlers : ∀ ref, (handlers ref).IgnoresDepth)
    (hdirect : ∀ n v, (handlers h).callsDirectly n v = true) (hargs : m.MayCall c d args)
    (hmarker : (m.atDepth (m.depth + 1)).LeavesUnmarked handlers c (file.openingOf d)
      (.enter c d.maxLocals.toNat args) (d.receiverOf args)) :
    ComesTo (fun n => executeBy .lifted handlers n c (file.methods.length + j) args) m (r, m') ↔
      ComesTo (whole.runIn .lifted handlers c file.name args) m (r, m') := by
  obtain ⟨hcode, hlocals⟩ := hk.of_whole hwhole
  have hlength : args.length = k.argumentCount := by
    rw [hk.stub.argumentCount_eq, hargs.length _ hk.signature, hstatic]
    rfl
  rw [comesTo_executeBy_iff hk.entry
      (LoadedMethod.verdict_lifted_eq hk.stub.native hk.stub.abstract hlength _ _),
    LoadedMethod.comesTo_runIn_iff, hc.name, hk.entryLocals, hlocals]
  refine exists_congr fun m'' => and_congr_left fun _ => ?_
  -- Both runs go through the opening first.
  let start := m.atDepth (m.depth + 1)
  have hc' : start.Intercepts c file file' h := hc.of_extends (m.extends_atDepth _)
  let locals := (Frame.enter c d.maxLocals.toNat args).locals
  obtain ⟨n, hstraight⟩ : ∃ n, Straight (start.cls c).constants locals 0 (file.openingOf d) n := by
    obtain ⟨depthAt, htyped⟩ := hk.entryTyped
    rw [hc'.constants]
    refine Straight.of_typed htyped.typed htyped.start (fun q hq => ?_) hk.parts.passes ?_
    · rw [Nat.zero_add]
      exact hk.stub.begins q hq
    · rw [hk.entryLocals]
      exact Frame.length_enter_locals (hk.entryLocals ▸ hlength ▸ htyped.room)
  have hentry : ∀ q : Nat, q < (file.openingOf d).length →
      k.code[0 + q]? = (file.openingOf d)[q]? := fun q hq => by
    rw [Nat.zero_add]
    exact hk.stub.begins q hq
  have hbegins : ∀ q : Nat, q < (file.openingOf d).length →
      whole.code[0 + q]? = (file.openingOf d)[q]? := fun q hq => by
    rw [Nat.zero_add, hcode, List.getElem?_toArray]
    exact hk.parts.begins q hq
  refine (hstraight.comesTo_run_iff hc'.has hentry file.name).trans
    (Iff.trans ?_ (hstraight.comesTo_run_iff hc'.has hbegins file.name).symm)
  refine or_congr_right (exists_congr fun f => exists_congr fun m₁ => and_congr_right ?_)
  rintro ⟨fuel, hadvance⟩
  have hunmarked := hmarker f m₁ ⟨fuel, hadvance⟩
  obtain ⟨hevolves, stack, rfl, -⟩ := hstraight.advance_ok rfl hc'.has
    (Simulation.executeBy_exactly .lifted handlers (Nat.le_refl fuel)) (.refl start) hadvance
  have hargs' : start.MayCall c d args := ⟨hargs.length, hargs.receiver, hargs.begun⟩
  rw [Nat.zero_add, (hc'.of_extends hevolves.classes).comesTo_cut_iff
    (hk.of_extends hc.has hevolves.classes) hunclaimed hd hinit hstatic hwhole hhandlers hdirect
    (hargs'.evolves hc'.has hstatic hevolves) file.name stack, Machine.clearMarker_of_unmarked hunmarked]

/-- **Split constructors.** What stands under the name of a constructor that is split comes to what the
constructor's own instructions come to in one frame, with the same effects, if the handler wants
declared bodies to run, no handler asks for the depth of calls, the limit to it is nothing to either
run, and the receiver's marker holds no instance of the class at the cut. -/
theorem comesTo_constructor_iff_oneFrame (hc : m.Intercepts c file file' h)
    (hverify : file.verify = .ok ()) (hverify' : file'.verify = .ok ())
    (hunclaimed : file.Unclaimed) (hd : file.Declares j d) (hinit : d.name = constructorName)
    (hstatic : d.isStatic = false) (hargs : m.MayCall c d args)
    (hhandlers : ∀ ref, (handlers ref).IgnoresDepth)
    (hdirect : ∀ n v, (handlers h).callsDirectly n v = true)
    (hmarker : (m.atDepth (m.depth + 1)).LeavesUnmarked handlers c (file.openingOf d)
      (.enter c d.maxLocals.toNat args) (d.receiverOf args))
    (hwhole : LoadedMethod.define file.name d = .ok whole) {entry : Nat}
    (hentry : (m.cls c).declaredMethod? constructorName d.descriptor = some entry)
    (hsplit : ClearOfLimit (fun limit n => executeBy limit handlers n c entry args) m)
    (hone : ClearOfLimit (fun limit => whole.runIn limit handlers c file.name args) m)
    (r : Except VmError Value) (m' : Machine) :
    ComesTo (fun n => executeWith handlers n c entry args) m (r, m') ↔
      ComesTo (whole.runIn .enforced handlers c file.name args) m (r, m') := by
  obtain ⟨code, rest, k, b, hk⟩ :=
    hc.exists_constructor hverify hverify' hd.declared hinit hstatic
  have hclinit : d.name ≠ staticInitializerName := hinit ▸ by decide
  rw [← hinit, hc.declaredMethod?_entryOf hunclaimed hd hclinit] at hentry
  obtain rfl : file.methods.length + j = entry := Option.some.inj hentry
  simp only [← executeBy_enforced]
  exact (hsplit (r, m')).trans ((hc.comesTo_split_iff hk hunclaimed hd hinit hstatic hwhole hhandlers
    hdirect hargs hmarker).trans (hone (r, m')).symm)

/-! ### Runs that end before the limit -/

theorem LoadedMethod.steady_runIn {limit : Limit} {owner : String} :
    Steady (k.runIn limit handlers c owner args) :=
  Steady.deeper (steady_run owner k _)

/-- A method that is run as one of a class, and ends without a call at the limit, ends so however the
limit is treated. -/
theorem ComesTo.runIn_of_lapsing {owner : String}
    (h : ComesTo (k.runIn .lapsing handlers c owner args) m (r, m')) (limit : Limit) :
    ComesTo (k.runIn limit handlers c owner args) m (r, m') := by
  obtain ⟨m'', hrun, rfl⟩ := LoadedMethod.comesTo_runIn_iff.1 h
  exact LoadedMethod.comesTo_runIn_iff.2 ⟨m'', hrun.run_of_lapsing limit, rfl⟩

end Cut

/-! ### Boxes -/

/-- A class file with two constructors. One keeps its argument in a field. The other writes the object
into the marker before the superclass is constructed, and keeps what it finds there afterwards. -/
def boxFile : ClassFile where
  name := "t.Box"
  superName := some "t.Base"
  constants := {
    fields := [⟨"t.Box", "content"⟩, ⟨"t.Box", markerFieldName⟩]
    methods := [⟨"t.Base", constructorName, "()V"⟩] }
  fields := [⟨"content", "X", Modifier.visible.bit⟩]
  methods :=
    [⟨constructorName, "(I)V", Modifier.visible.bit, [], 2, Code.encode [.loadLocal 0,
      .invoke .special 0, .loadLocal 0, .loadLocal 1, .field .put 0, .simple .retVoid]⟩,
    ⟨constructorName, "()V", Modifier.visible.bit, [], 1, Code.encode [.loadLocal 0, .loadLocal 0,
      .field .put 1, .loadLocal 0, .invoke .special 0, .loadLocal 0, .loadLocal 0, .field .get 1,
      .field .put 0, .simple .retVoid]⟩]

/-- The instrumented form of that file. -/
def splitBoxFile : ClassFile := boxFile.transform.toOption.getD default

/-- The superclass, which is not instrumented. -/
def baseOfBox : LoadedClass :=
  (LoadedClass.define ⟨⟨0⟩, false, false, none⟩ none
    { name := "t.Base", methods := [⟨constructorName, "()V", Modifier.visible.bit, [], 1,
      Code.encode [.simple .retVoid]⟩] }).toOption.getD default

/-- The class of the instrumented form, whose handler is the first. -/
def splitBox : LoadedClass :=
  (LoadedClass.define ⟨⟨0⟩, false, true, some ⟨0⟩⟩ (some (⟨0⟩, baseOfBox))
    splitBoxFile).toOption.getD default

/-- A machine with a box of that class, which nothing has been put into. -/
def boxMachine (content : Value) : Machine where
  realm := {
    classes := ⟨#[baseOfBox, splitBox]⟩
    loaders := #[{ kind := .bootstrap, classes := [("t.Base", ⟨0⟩)] }]
    resources := {} }
  heap := { objects := #[⟨⟨1⟩, #[content, .null]⟩] }
  entry := ⟨0⟩

theorem boxMachine_intercepts (content : Value) :
    (boxMachine content).Intercepts ⟨1⟩ boxFile splitBoxFile ⟨0⟩ where
  transform := by decide +kernel
  fits := by decide +kernel
  define := ⟨⟨⟨0⟩, false, true, some ⟨0⟩⟩, some (⟨0⟩, baseOfBox), splitBox, rfl, rfl,
    by decide +kernel, rfl⟩

theorem boxFile_verify : boxFile.verify = .ok () ∧ splitBoxFile.verify = .ok () := by
  decide +kernel

theorem boxFile_unclaimed : boxFile.Unclaimed := ⟨by decide +kernel, by decide +kernel⟩

theorem boxFile_distinct : boxFile.Distinct := by decide +kernel

/-- Handlers that run declared bodies do not ask for the depth. -/
theorem ignoresDepth_default : (default : Handler).IgnoresDepth :=
  ⟨fun _ _ _ => rfl, fun _ _ => trivial, fun _ _ => trivial⟩

/-- The constructors of a box, prepared. -/
def boxConstructor (j : Nat) : LoadedMethod :=
  (LoadedMethod.define "t.Box" (boxFile.methods.getD j default)).toOption.getD default

/-- What stands under the names of the constructors, the field for the argument, and the marker, with
what makes the object one of the class. -/
theorem boxMachine_members :
    ((boxMachine .null).cls ⟨1⟩).declaredMethod? constructorName "(I)V" = some 2 ∧
      ((boxMachine .null).cls ⟨1⟩).declaredMethod? constructorName "()V" = some 3 ∧
      ((boxMachine .null).cls ⟨1⟩).declaredField? "content" = some 0 ∧
      (boxMachine .null).marker? ⟨1⟩ (.object ⟨0⟩) = some (⟨0⟩, 1, .null) ∧
      (boxMachine .null).classes.isSubclass ⟨1⟩ ⟨1⟩ = true ∧
      ((boxMachine .null).cls ⟨1⟩).slotCount ≤ 2 := by
  decide +kernel

theorem boxMachine_instantiates : (boxMachine .null).Instantiates ⟨0⟩ ⟨1⟩ := by
  obtain ⟨-, -, -, -, hsubclass, hslots⟩ := boxMachine_members
  exact ⟨⟨⟨1⟩, #[.null, .null]⟩, rfl, hsubclass, hslots⟩

/-- A box is constructed with three in it. -/
theorem boxMachine_comesTo :
    ComesTo (fun n => executeWith (fun _ => default) n ⟨1⟩ 2 [.object ⟨0⟩, .int 3])
      (boxMachine .null) (.ok .null, boxMachine (.int 3)) := by
  have hsignature : boxFile.methods[0].signature = .ok ⟨[.int], .void⟩ := by decide +kernel
  have hargs : (boxMachine .null).MayCall ⟨1⟩ boxFile.methods[0] [.object ⟨0⟩, .int 3] := by
    refine ⟨fun signature hs => ?_, fun _ => ⟨⟨0⟩, rfl, boxMachine_instantiates⟩, nofun⟩
    obtain rfl : ⟨[.int], .void⟩ = signature := Except.ok.inj (hsignature.symm.trans hs)
    rfl
  have hdeclared : boxFile.Declares 0 boxFile.methods[0] :=
    boxFile_distinct.declares (by decide +kernel)
  have hmarker : ((boxMachine .null).atDepth 1).LeavesUnmarked (fun _ => default) ⟨1⟩
      (boxFile.openingOf boxFile.methods[0]) (.enter ⟨1⟩ 2 [.object ⟨0⟩, .int 3]) (.object ⟨0⟩) := by
    intro f m' h
    have hadvance : ComesTo (fun n => Frame.advance (fun _ => default)
        (executeBy .lifted (fun _ => default) n) (boxFile.openingOf boxFile.methods[0])
        (.enter ⟨1⟩ 2 [.object ⟨0⟩, .int 3])) ((boxMachine .null).atDepth 1)
        (.ok ⟨⟨1⟩, 2, [.object ⟨0⟩, .int 3], []⟩, (boxMachine .null).atDepth 1) :=
      ⟨5, by decide +kernel⟩
    cases ComesTo.unique (steady_advance _ _) h hadvance
    decide +kernel
  have hwhole : LoadedMethod.define boxFile.name boxFile.methods[0] = .ok (boxConstructor 0) := by
    decide +kernel
  have hsplit : ComesTo (fun n => executeBy .lapsing (fun _ => default) n ⟨1⟩ 2
      [.object ⟨0⟩, .int 3]) (boxMachine .null) (.ok .null, boxMachine (.int 3)) :=
    ⟨40, by decide +kernel⟩
  have hone : ComesTo ((boxConstructor 0).runIn .lapsing (fun _ => default) ⟨1⟩ "t.Box"
      [.object ⟨0⟩, .int 3]) (boxMachine .null) (.ok .null, boxMachine (.int 3)) :=
    ⟨40, by decide +kernel⟩
  exact (comesTo_constructor_iff_oneFrame (boxMachine_intercepts .null) boxFile_verify.1
    boxFile_verify.2 boxFile_unclaimed hdeclared (by decide +kernel) (by decide +kernel) hargs
    (fun _ => ignoresDepth_default) (fun _ _ => rfl) hmarker hwhole boxMachine_members.1
    (.of_comesTo (fun _ => steady_execute _ _ _) hsplit.executeBy_of_lapsing)
    (.of_comesTo (fun _ => LoadedMethod.steady_runIn) hone.runIn_of_lapsing) _ _).2
    (hone.runIn_of_lapsing .enforced)

/-- A box that writes itself into the marker, and keeps what is there once its superclass has been
constructed, keeps null if it is split, and itself if it is not, however the limit is treated. -/
theorem boxMachine_marker_read :
    (boxMachine .null).Intercepts ⟨1⟩ boxFile splitBoxFile ⟨0⟩ ∧ boxFile.verify = .ok () ∧
      splitBoxFile.verify = .ok () ∧ boxFile.Unclaimed ∧ boxFile.Distinct ∧
      boxFile.methods[1].name = constructorName ∧
      (boxMachine .null).MayCall ⟨1⟩ boxFile.methods[1] [.object ⟨0⟩] ∧
      (boxMachine .null).marker? ⟨1⟩ (.object ⟨0⟩) = some (⟨0⟩, 1, .null) ∧
      ((boxMachine .null).cls ⟨1⟩).declaredMethod? constructorName "()V" = some 3 ∧
      LoadedMethod.define "t.Box" boxFile.methods[1] = .ok (boxConstructor 1) ∧
      ∃ m₁ m₂,
        (∀ limit, ComesTo (fun n => executeBy limit (fun _ => default) n ⟨1⟩ 3 [.object ⟨0⟩])
          (boxMachine .null) (.ok .null, m₁)) ∧
        (∀ limit, ComesTo ((boxConstructor 1).runIn limit (fun _ => default) ⟨1⟩ "t.Box"
          [.object ⟨0⟩]) (boxMachine .null) (.ok .null, m₂)) ∧
        (m₁.cls ⟨1⟩).declaredField? "content" = some 0 ∧
        m₁.heap.slot? ⟨0⟩ 0 = some .null ∧ m₂.heap.slot? ⟨0⟩ 0 = some (.object ⟨0⟩) := by
  have hsignature : boxFile.methods[1].signature = .ok ⟨[], .void⟩ := by decide +kernel
  have hargs : (boxMachine .null).MayCall ⟨1⟩ boxFile.methods[1] [.object ⟨0⟩] := by
    refine ⟨fun signature hs => ?_, fun _ => ⟨⟨0⟩, rfl, boxMachine_instantiates⟩, nofun⟩
    obtain rfl : ⟨[], .void⟩ = signature := Except.ok.inj (hsignature.symm.trans hs)
    rfl
  have hsplit : ComesTo (fun n => executeBy .lapsing (fun _ => default) n ⟨1⟩ 3 [.object ⟨0⟩])
      (boxMachine .null) (.ok .null, boxMachine .null) := ⟨40, by decide +kernel⟩
  have hone : ComesTo ((boxConstructor 1).runIn .lapsing (fun _ => default) ⟨1⟩ "t.Box"
      [.object ⟨0⟩]) (boxMachine .null) (.ok .null, { boxMachine .null with
        heap := { objects := #[⟨⟨1⟩, #[.object ⟨0⟩, .object ⟨0⟩]⟩] } }) :=
    ⟨40, by decide +kernel⟩
  obtain ⟨-, hentry, hcontent, hmarker, -, -⟩ := boxMachine_members
  exact ⟨boxMachine_intercepts .null, boxFile_verify.1, boxFile_verify.2, boxFile_unclaimed,
    boxFile_distinct, by decide +kernel, hargs, hmarker, hentry, by decide +kernel, _, _,
    hsplit.executeBy_of_lapsing, hone.runIn_of_lapsing, hcontent, by decide +kernel,
    by decide +kernel⟩

end Interpose
