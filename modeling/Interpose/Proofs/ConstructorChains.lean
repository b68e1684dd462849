import Interpose.Proofs.Initialization
import Interpose.Proofs.InterceptedCalls
import Interpose.Proofs.LoadHistories
import Interpose.Proofs.StandingLines
/-!
# Constructor chains

A new instance of a class whose constructor constructs the superclass, whose constructor does the
same, and so on up to the root. Some of these classes are instrumented. Their constructors have been
cut behind the call of the one above, so the handler is told of a class when everything above it has
been constructed: the calls come in from the root down to the class itself, however many classes there
are and whichever of them are instrumented.

All that happens to the machine is that classes are loaded and initialized, that there is a new object,
and that events are noted. Since the object is new, no object is in its markers, so no stub takes a
call for one that the handler has sent past it.

## Main definitions

* `Machine.Noted`: what a constructor does to the machine
* `Machine.HasBlankMarker`: objects that no call has been sent past a stub for
* `Handler.Records`: handlers that write down what they are told and answer null

## Main results

* `Realm.LoadedLine.comesTo_constructor`: the constructors of a line that stands
* `newInstance_tells_from_the_root`: a new instance of a class that has yet to be loaded
-/

namespace Interpose

/-! ### Notes -/

/-- The second machine is the first with some events noted, and with other arrays. -/
def Machine.Noted (m : Machine) (events : List Event) (m' : Machine) : Prop :=
  ∃ arrays, m' = { m with
    heap := { m.heap with arrays := arrays }
    journal := m.journal ++ events.toArray }

namespace Machine.Noted

variable {m m' m'' : Machine} {events events' : List Event}

theorem refl (m : Machine) : m.Noted [] m := ⟨m.heap.arrays, by rw [Array.append_empty]⟩

theorem trans (h : m.Noted events m') (h' : m'.Noted events' m'') :
    m.Noted (events ++ events') m'' := by
  obtain ⟨arrays, rfl⟩ := h
  obtain ⟨arrays', rfl⟩ := h'
  exact ⟨arrays', by simp⟩

/-- Events are noted one call deeper as they are here. -/
theorem of_deeper {d : Nat} (h : (m.atDepth d).Noted events m') :
    m.Noted events (m'.atDepth m.depth) := by
  obtain ⟨arrays, rfl⟩ := h
  exact ⟨arrays, rfl⟩

end Machine.Noted

/-- The marker of a class in an object holds no object, as in a new instance. -/
def Machine.HasBlankMarker (m : Machine) (c : ClassRef) (o : ObjectRef) : Prop :=
  ∃ slot v, m.marker? c (.object o) = some (o, slot, v) ∧ ∀ a, v ≠ .object a

theorem Machine.Noted.hasBlankMarker {m m' : Machine} {events : List Event} {c : ClassRef}
    {o : ObjectRef} (h : m.Noted events m') (hb : m.HasBlankMarker c o) : m'.HasBlankMarker c o := by
  obtain ⟨arrays, rfl⟩ := h
  exact hb

/-- A handler that runs no declared bodies, writes down what it is told, and answers null. -/
structure Handler.Records (handler : Handler) : Prop where
  callsDirectly : ∀ m v, handler.callsDirectly m v = false
  methodInvoked : ∀ call, handler.methodInvoked call = .note (.called call) (.answer .null)

/-- What is told of the construction of an object: one call for each instrumented class of a line,
the root's first. -/
def constructorCalls (o : ObjectRef) (rungs : List Rung) : List Event :=
  (rungs.filter Rung.instrumented).reverse.map fun s =>
    .called ⟨s.cls, constructorBodyName, .object o, [], []⟩

theorem constructorCalls_cons (o : ObjectRef) (s : Rung) (rest : List Rung) :
    constructorCalls o (s :: rest) = constructorCalls o rest ++
      if s.instrumented then [.called ⟨s.cls, constructorBodyName, .object o, [], []⟩] else [] := by
  cases hs : s.instrumented <;> simp [constructorCalls, hs]

/-! ### Initialization -/

section Initialization

variable {m : Machine} {h : HandlerRef} {rungs rest : List Rung} {s : Rung}

/-- A line does not mind the states of its classes. -/
theorem Realm.LoadedLine.updateClasses (hr : m.realm.LoadedLine h rungs)
    {f : ClassTable → ClassTable} (hf : m.classes.Extends (f m.classes)) :
    (m.updateClasses f).realm.LoadedLine h rungs :=
  hr.mono hf fun _ _ _ _ hc => hc

theorem Run.runInitializer_of_none {execute : Execute} {c : ClassRef}
    (hc : (m.cls c).declaredMethod? staticInitializerName "()V" = none) :
    runInitializer execute c m = some (.ok (), m) := by
  unfold runInitializer
  rw [get_bind_apply, hc]
  rfl

/-- Initializing a line marks its classes, and does nothing else. -/
theorem Run.exists_initializeLineage (hr : m.realm.LoadedLine h rungs) :
    ∃ t, m.classes.Extends t ∧ ∀ execute, initializeLineage execute (rungs.map Rung.cls) m =
      some (.ok (), m.updateClasses fun _ => t) := by
  induction rungs generalizing m with
  | nil => exact ⟨m.classes, .refl _, fun _ => rfl⟩
  | cons s rest ih =>
    rw [List.map_cons]
    by_cases hs : (m.cls s.cls).state = .uninitialized
    · have hbegin : m.classes.Extends (m.classes.setState s.cls .initializing) :=
        ClassTable.extends_modify fun _ => rfl
      obtain ⟨t, ht, hrest⟩ := ih (m := m.begin s.cls) <|
        (hr.of_suffix (List.suffix_cons s rest)).updateClasses hbegin
      have hline : ((m.begin s.cls).updateClasses fun _ => t).realm.LoadedLine h (s :: rest) :=
        (hr.updateClasses hbegin).updateClasses ht
      refine ⟨t.setState s.cls .initialized,
        (hbegin.trans ht).trans (ClassTable.extends_modify fun _ => rfl), fun execute => ?_⟩
      rw [initializeLineage_apply _ hs, initializeBody, bind_of_ok (hrest execute)]
      have hnone : runInitializer execute s.cls ((m.begin s.cls).updateClasses fun _ => t) =
          some (.ok (), (m.begin s.cls).updateClasses fun _ => t) :=
        runInitializer_of_none hline.declaredMethod?_initializer
      rw [hnone]
      rfl
    · exact ⟨m.classes, .refl _, fun _ => initializeLineage_of_begun _ hs⟩

end Initialization

/-! ### Constructors -/

section Construction

variable {m m₁ : Machine} {h : HandlerRef} {handlers : Handlers} {rest rungs : List Rung} {s : Rung}
variable {o : ObjectRef} {locals : List Value} {opening : List Instruction}

theorem Run.declaredMethod_of_some {c : ClassRef} {owner name descriptor : String} {i : Nat}
    (hi : (m.cls c).declaredMethod? name descriptor = some i) :
    declaredMethod c owner name descriptor m = some (.ok i, m) := by
  unfold declaredMethod
  rw [get_bind_apply, hi]
  rfl

/-- The class of a constructor finds the superclass, which has been loaded, and constructs it. -/
theorem Act.callTarget_constructor {execute : Execute} {f : Frame} {c : ClassRef} {name : String}
    {i : Nat} (hname : (m.cls f.cls).name ≠ name) (hlive : m.realm.hasLiveLoader f.cls = true)
    (hloaded : m.realm.loaded? (m.cls f.cls).loader name = some c)
    (hi : (m.cls c).declaredMethod? constructorName "()V" = some i) :
    callTarget execute .special ⟨name, constructorName, "()V"⟩ [.object o] f m =
      some (.ok ((c, i), f), m) := by
  have hresolve : Run.resolveClass f.cls name m = some (.ok c, m) := by
    show (if (m.cls f.cls).name = name then pure f.cls
      else if m.realm.hasLiveLoader f.cls then Run.loadThrough (m.cls f.cls).loader name
      else Run.loadThrough m.entry name : Run ClassRef) m = _
    rw [if_neg hname, if_pos hlive, Run.loadThrough, Load.load_of_loaded? hloaded]
  have hreceiver : (liftM (Run.asObject (.object o)) : Act ObjectRef) f m =
      some (.ok (o, f), m) := rfl
  refine (bind_of_ok hreceiver).trans ((bind_of_ok (a := f) rfl).trans ?_)
  refine (bind_of_ok (lift_of_ok hresolve)).trans ?_
  exact (bind_of_ok (lift_of_ok (Run.declaredMethod_of_some hi))).trans rfl

/-- **Openings.** An opening constructs what is above, with nothing left on the stack. -/
theorem Realm.LoadedLine.exists_advance (hr : m.realm.LoadedLine h (s :: rest))
    (hnew : ∀ t ∈ rest.head?, s.file.name ≠ t.file.name)
    (hopening : s.file.OpensWith opening)
    (hlocals : locals[0]? = some (.object o))
    (habove : ∀ t ∈ rest.head?, ∃ m₁,
      ComesTo (fun n => executeWith handlers n t.cls t.instrumented.toNat [.object o]) m
        (.ok .null, m₁) ∧ m.Noted (constructorCalls o rest) m₁) :
    ∃ m₁, ComesTo (fun n => Frame.advance handlers (executeWith handlers n) opening
        ⟨s.cls, 0, locals, []⟩) m (.ok ⟨s.cls, opening.length, locals, []⟩, m₁) ∧
      m.Noted (constructorCalls o rest) m₁ := by
  have hsuper := hr.superName_eq
  cases rest with
  | nil =>
    rw [ClassFile.OpensWith, hsuper] at hopening
    obtain rfl : opening = [] := hopening
    exact ⟨m, ⟨0, rfl⟩, .refl m⟩
  | cons t rest =>
    rw [ClassFile.OpensWith, hsuper] at hopening
    obtain ⟨index, hindex, rfl⟩ := hopening
    obtain ⟨m₁, ⟨fuel, hfuel⟩, hnoted⟩ := habove t rfl
    refine ⟨m₁, ⟨fuel, ?_⟩, hnoted⟩
    have hname : (m.cls s.cls).name ≠ t.file.name := hr.name ▸ hnew t rfl
    have hconstructor : (m.cls t.cls).declaredMethod? constructorName "()V" =
        some t.instrumented.toNat :=
      (hr.of_suffix (List.suffix_cons s (t :: rest))).declaredMethod?_constructor
    have hread : Act.readLocal 0 ⟨s.cls, 1, locals, []⟩ m =
        some (.ok (.object o, ⟨s.cls, 1, locals, []⟩), m) := by
      rw [Act.readLocal_of_some hlocals]
      rfl
    have hload : Act.step (executeWith handlers fuel) handlers (.loadLocal 0) ⟨s.cls, 1, locals, []⟩
        m = some (.ok (none, ⟨s.cls, 1, locals, [.object o]⟩), m) :=
      (Act.bind_of_ok hread).trans rfl
    have hinvoke : Act.step (executeWith handlers fuel) handlers (.invoke .special index)
        ⟨s.cls, 2, locals, [.object o]⟩ m = some (.ok (none, ⟨s.cls, 2, locals, []⟩), m₁) := by
      have htarget : Act.callTarget (executeWith handlers fuel) .special
          ⟨t.file.name, constructorName, "()V"⟩ [.object o] ⟨s.cls, 2, locals, []⟩ m =
            some (.ok ((t.cls, t.instrumented.toNat), ⟨s.cls, 2, locals, []⟩), m) :=
        Act.callTarget_constructor hname hr.hasLiveLoader (hr.loaded?_next t rfl) hconstructor
      have href := hr.extends_constants.method? hindex
      refine (Frame.step_invoke href parse_noParams rfl htarget).trans ?_
      exact (Run.bind_of_ok hfuel).trans rfl
    refine (Run.bind_of_ok hload).trans ?_
    exact (Run.bind_of_ok hinvoke).trans rfl

/-- A constructor that is not instrumented comes to its end when its opening does. -/
theorem ClassFile.OnlyConstructs.comesTo_stored {file : ClassFile} {d : MethodDef}
    (hform : file.OnlyConstructs d) (hverify : file.verify = .ok ()) {c : ClassRef} {i : Nat}
    {k : LoadedMethod} (hk : (m.cls c).methods[i]? = some k)
    (hdefine : LoadedMethod.define file.name d = .ok k) (hc : m.classes.Has c)
    (hpool : (m.cls c).constants = file.constants) (hdepth : m.depth < m.maxDepth)
    (hadvance : ComesTo (fun n => Frame.advance handlers (executeWith handlers n) (file.openingOf d)
        (.enter c k.maxLocals.toNat [.object o])) (m.atDepth (m.depth + 1))
      (.ok ⟨c, (file.openingOf d).length, (Frame.enter c k.maxLocals.toNat [.object o]).locals, []⟩,
        m₁)) :
    ComesTo (fun n => executeWith handlers n c i [.object o]) m (.ok .null, m₁.atDepth m.depth) := by
  have hcheck := (verify_eq_ok_iff.1 hverify).2 d (hform.methods ▸ List.mem_singleton_self d)
  obtain ⟨hsignature, hdecode, haccess, -⟩ := LoadedMethod.of_define hdefine
  obtain ⟨hn, ha⟩ : k.isNative = false ∧ k.isAbstract = false := by
    rw [LoadedMethod.isNative, LoadedMethod.isAbstract, haccess]
    exact hform.flags hverify
  have hargs : [Value.object o].length = k.argumentCount := by
    obtain hk_signature : k.signature = ⟨[], .void⟩ :=
      Except.ok.inj (hsignature.symm.trans hform.signature)
    have hstatic : k.isStatic = false := by
      rw [LoadedMethod.isStatic, haccess]
      exact hform.static
    rw [LoadedMethod.argumentCount, hk_signature, hstatic]
    rfl
  have henters : Limit.enforced.verdict (k.obstacle? (m.cls c).name [.object o] m) = some none := by
    rw [LoadedMethod.obstacle?_eq hn ha hargs, if_neg (Nat.not_le.2 hdepth)]
    rfl
  -- The body is the opening and the return.
  obtain ⟨opening, hopening, hcode⟩ := hform.code
  rw [openingOf_eq hform.name hcode hopening.cut_eq] at hadvance
  have hget : ∀ q : Nat, k.code[q]? = (opening ++ [.simple .retVoid])[q]? := fun q => by
    rw [← Array.getElem?_toList, Except.ok.inj (hdecode.symm.trans hcode)]
  have hbegins : ∀ q : Nat, q < opening.length → k.code[0 + q]? = opening[q]? := fun q hq => by
    rw [Nat.zero_add, hget, List.getElem?_append_left hq]
  have hends : k.code[opening.length]? = some (.simple .retVoid) := by
    rw [hget, List.getElem?_concat_length]
  have hrenamed : LoadedMethod.define file.name { d with name := d.name } = .ok k := hdefine
  obtain ⟨depthAt, htyped⟩ := LoadedMethod.exists_wellTyped_of_define hcheck hrenamed hn ha
  obtain ⟨n, hstraight⟩ : ∃ n, Straight ((m.atDepth (m.depth + 1)).cls c).constants
      (Frame.enter c k.maxLocals.toNat [.object o]).locals ([] : List Value).length opening n := by
    rw [Machine.cls_atDepth, hpool]
    exact Straight.of_typed htyped.typed htyped.start hbegins
      (SuperCall.parts_of_cut hopening.cut_eq).passes
      (Frame.length_enter_locals (hargs ▸ htyped.room))
  simp only [← executeBy_enforced] at hadvance ⊢
  refine (comesTo_executeBy_iff hk henters).2 ⟨m₁, ?_, rfl⟩
  exact (hstraight.comesTo_iff hc hbegins hadvance _).2 ⟨1, Frame.run_retVoid hends⟩

/-- An instrumented constructor has the handler told of it when its opening has come to its end. -/
theorem ClassFile.OnlyConstructs.comesTo_instrumented {file file' : ClassFile} {d : MethodDef}
    (hform : file.OnlyConstructs d) (hverify : file.verify = .ok ()) {c : ClassRef}
    (hc : m.Intercepts c file file' h) (hrecords : (handlers h).Records) {k : LoadedMethod}
    (hk : (m.cls c).methods[1]? = some k) (hdepth : m.depth < m.maxDepth) {f : Frame}
    (hadvance : ComesTo (fun n => Frame.advance handlers (executeWith handlers n) (file.openingOf d)
      (.enter c k.maxLocals.toNat [.object o])) (m.atDepth (m.depth + 1)) (.ok f, m₁))
    (hmarker : m₁.HasBlankMarker c o) :
    ∃ m₂, ComesTo (fun n => executeWith handlers n c 1 [.object o]) m
        (.ok .null, m₂.atDepth m.depth) ∧
      m₁.Noted [.called ⟨c, constructorBodyName, .object o, [], []⟩] m₂ := by
  have hplace : file.methods.length + 0 = 1 := by rw [hform.methods]; rfl
  have hdeclared : file.methods[0]? = some d := by rw [hform.methods]; rfl
  have hreceiver : d.receiverOf [.object o] = .object o := by
    rw [MethodDef.receiverOf, hform.static]
    rfl
  have hcall : d.callOf c ⟨[], .void⟩ [.object o] =
      ⟨c, constructorBodyName, .object o, [], []⟩ := by
    rw [MethodDef.callOf, hreceiver, MethodDef.recordName, if_pos hform.name, MethodDef.argumentsOf,
      hform.static]
    rfl
  have hturns : m₁.TurnsToHandler (handlers h) c d (d.receiverOf [.object o]) := by
    obtain ⟨slot, v, hslot, hv⟩ := hmarker
    refine .inr ⟨fun _ => ⟨o, slot, v, hreceiver.symm ▸ hslot, ?_⟩, hrecords.callsDirectly _ _⟩
    cases v with
    | object a => exact absurd rfl (hv a)
    | _ => rfl
  have hiff := hc.comesTo_entry_iff hverify (hform.verify_of_transform hverify hc.transform hc.fits)
    hdeclared (by rw [hform.name]; decide) (fun _ => hform.static) hform.signature
    (by rw [hform.static]; rfl) hdepth (hplace ▸ hk) hadvance hturns
  rw [hplace, hcall, hrecords.methodInvoked] at hiff
  exact ⟨_, (hiff _ _).2 ⟨_, ⟨0, rfl⟩, rfl⟩, ⟨_, rfl⟩⟩

/-- The constructor of the first class of a line comes to null, if the next one does one call deeper.
The handler is told of the class when it has been told of all that is above. -/
theorem Realm.LoadedLine.comesTo_first (hrecords : (handlers h).Records)
    (hr : m.realm.LoadedLine h (s :: rest)) (hnew : ∀ t ∈ rest.head?, s.file.name ≠ t.file.name)
    (hmarker : s.instrumented = true → m.HasBlankMarker s.cls o) (hdepth : m.depth < m.maxDepth)
    (habove : ∀ t ∈ rest.head?, ∃ m₁,
      ComesTo (fun n => executeWith handlers n t.cls t.instrumented.toNat [.object o])
        (m.atDepth (m.depth + 1)) (.ok .null, m₁) ∧
      (m.atDepth (m.depth + 1)).Noted (constructorCalls o rest) m₁) :
    ∃ m', ComesTo (fun n => executeWith handlers n s.cls s.instrumented.toNat [.object o]) m
        (.ok .null, m') ∧ m.Noted (constructorCalls o (s :: rest)) m' := by
  let inside := m.atDepth (m.depth + 1)
  have hline : inside.realm.LoadedLine h (s :: rest) := hr
  have hadvance : ∀ maxLocals opening, s.file.OpensWith opening → ∃ m₁,
      ComesTo (fun n => Frame.advance handlers (executeWith handlers n) opening
        (.enter s.cls maxLocals [.object o])) inside
        (.ok ⟨s.cls, opening.length, (Frame.enter s.cls maxLocals [.object o]).locals, []⟩, m₁) ∧
      inside.Noted (constructorCalls o rest) m₁ := fun maxLocals opening hopening =>
    hline.exists_advance hnew hopening rfl habove
  rw [constructorCalls_cons]
  cases hr with
  | @cons c file used rest d definer kc above form verified next use live has define fixed found =>
    dsimp only at hadvance ⊢
    cases use with
    | stored plain =>
      obtain ⟨methods, layout, hmethods, -, rfl⟩ := LoadedClass.define_eq_ok define
      obtain ⟨k, hk, hdefine⟩ := (Results.mapM_eq_ok hmethods).2 0 d (by rw [form.methods]; rfl)
      have hmethod : (m.cls c).methods[0]? = some k := by
        rw [show (m.cls c).methods = methods from LoadedClass.methods_eq_of_fixed fixed]
        exact hk
      obtain ⟨m₁, hopening, hnoted⟩ := hadvance k.maxLocals.toNat _ form.openingOf
      rw [plain, if_neg Bool.false_ne_true, List.append_nil]
      exact ⟨m₁.atDepth m.depth, form.comesTo_stored verified hmethod hdefine has
        (LoadedClass.constants_eq_of_fixed fixed) hdepth hopening, hnoted.of_deeper⟩
    | instrumented marked handler transform fits =>
      have hc : m.Intercepts c file used h :=
        ⟨transform, fits, definer, _, kc, marked, handler, define, fixed⟩
      obtain ⟨body, entry, pool, hmethods, -, -⟩ := form.methods_of_transform transform
      obtain ⟨k, hk, -⟩ := hc.exists_method (i := 1) (d := entry) (by rw [hmethods]; rfl)
      obtain ⟨m₁, hopening, hnoted⟩ := hadvance k.maxLocals.toNat _ form.openingOf
      obtain ⟨m₂, hcomes, hcalled⟩ := form.comesTo_instrumented verified hc hrecords hk hdepth
        hopening (hnoted.hasBlankMarker (hmarker marked))
      rw [marked, if_pos rfl]
      exact ⟨m₂.atDepth m.depth, hcomes, (hnoted.trans hcalled).of_deeper⟩

/-- **Constructors.** The constructor of the first class of a line comes to null, and the handler has
been told of the instrumented classes, the root first. By induction on the line. -/
theorem Realm.LoadedLine.comesTo_constructor (hrecords : (handlers h).Records)
    (hr : m.realm.LoadedLine h rungs) (hnames : (rungs.map fun s => s.file.name).Nodup)
    (hmarkers : ∀ s ∈ rungs, s.instrumented = true → m.HasBlankMarker s.cls o)
    (hdepth : m.depth + rungs.length ≤ m.maxDepth) :
    ∀ s ∈ rungs.head?, ∃ m',
      ComesTo (fun n => executeWith handlers n s.cls s.instrumented.toNat [.object o]) m
        (.ok .null, m') ∧ m.Noted (constructorCalls o rungs) m' := by
  induction rungs generalizing m with
  | nil => exact nofun
  | cons s rest ih =>
    rintro _ ⟨⟩
    obtain ⟨hnew, hnames'⟩ := List.nodup_cons.1 hnames
    rw [List.length_cons] at hdepth
    refine hr.comesTo_first hrecords (fun t ht heq => ?_) (hmarkers s List.mem_cons_self)
      (by omega) (ih (hr.of_suffix (List.suffix_cons s rest)) hnames' ?_ ?_)
    · exact hnew (List.mem_map.2 ⟨t, List.mem_of_mem_head? ht, heq.symm⟩)
    · exact fun t ht => hmarkers t (List.mem_cons_of_mem s ht)
    · show m.depth + 1 + rest.length ≤ m.maxDepth
      omega

/-- A new instance of the first class of a line has nothing in its markers. -/
theorem Realm.LoadedLine.hasBlankMarker (hr : m.realm.LoadedLine h (s :: rest))
    (hobject : m.heap.object o = m.classes.newInstance s.cls) {t : Rung} (ht : t ∈ s :: rest)
    (hinstrumented : t.instrumented = true) : m.HasBlankMarker t.cls o := by
  obtain ⟨slot, v, hslot, hv, hnot⟩ := hr.exists_marker ht hinstrumented
  refine ⟨slot, v, ?_, hnot⟩
  have hheld : m.heap.slot? o slot = some v := by
    rw [Heap.slot?, hobject]
    exact hv
  have hfield : (m.cls t.cls).declaredField? markerFieldName = some slot := hslot
  simp only [Machine.marker?, hfield, hheld]
  rfl

end Construction

/-! ### New instances -/

section NewInstance

variable {m : Machine} {h : HandlerRef} {handlers : Handlers} {rest rungs : List Rung} {s : Rung}

/-- A new instance of the first class of a line, whatever classes of it are initialized already. -/
theorem Run.comesTo_newInstance (hrecords : (handlers h).Records) {name : String} {r : Realm}
    (hload : Load.load m.entry name m.realm = (.ok s.cls, r)) (hr : r.LoadedLine h (s :: rest))
    (hnames : ((s :: rest).map fun t => t.file.name).Nodup)
    (hdepth : m.depth + (s :: rest).length ≤ m.maxDepth) :
    ∃ m', ComesTo (fun n => newInstance (executeWith handlers n) name "()V" []) m
        (.ok (.object ⟨m.heap.objects.size⟩), m') ∧
      m'.realm.LoadedLine h (s :: rest) ∧ m'.classOf ⟨m.heap.objects.size⟩ = s.cls ∧
      m'.journal = m.journal ++ (constructorCalls ⟨m.heap.objects.size⟩ (s :: rest)).toArray := by
  let o : ObjectRef := ⟨m.heap.objects.size⟩
  let m₁ : Machine := { m with realm := r }
  have hloaded : loadClass name m = some (.ok s.cls, m₁) := by
    show loadThrough m.entry name m = _
    rw [loadThrough, hload]
  obtain ⟨t, ht, hbegun⟩ := exists_initializeLineage (m := m₁) hr
  let m₂ : Machine := m₁.updateClasses fun _ => t
  have hr₂ : m₂.realm.LoadedLine h (s :: rest) := hr.updateClasses (m := m₁) ht
  have hinitialized : ∀ execute, initializeClass execute s.cls m₁ = some (.ok (), m₂) := by
    intro execute
    show initializeLineage execute (m₁.classes.lineage s.cls) m₁ = _
    rw [show m₁.classes.lineage s.cls = _ from hr.lineage_eq]
    exact hbegun execute
  have hdeclared : declaredMethod s.cls name constructorName "()V" m₂ =
      some (.ok s.instrumented.toNat, m₂) := declaredMethod_of_some hr₂.declaredMethod?_constructor
  let m₃ : Machine := { m₂ with heap := (m₂.heap.allocate (m₂.classes.newInstance s.cls)).2 }
  have hallocated : allocate s.cls m₂ = some (.ok (.object o), m₃) := rfl
  have hobject : m₃.heap.object o = m₂.classes.newInstance s.cls := Heap.object_allocate _ _
  have hr₃ : m₃.realm.LoadedLine h (s :: rest) := hr₂
  obtain ⟨m', ⟨fuel, hfuel⟩, hnoted⟩ :=
    hr₃.comesTo_constructor hrecords hnames (fun t => hr₃.hasBlankMarker hobject) hdepth s rfl
  refine ⟨m', ⟨fuel, ?_⟩, ?_⟩
  · refine (bind_of_ok hloaded).trans ((bind_of_ok (hinitialized _)).trans ?_)
    refine (bind_of_ok hdeclared).trans ?_
    exact (bind_of_ok hallocated).trans ((bind_of_ok hfuel).trans rfl)
  · obtain ⟨arrays, rfl⟩ := hnoted
    exact ⟨hr₂, congrArg Instance.cls hobject, rfl⟩

/-- The calls, told by the classes themselves. -/
theorem constructorCalls_eq {r : Realm} (hr : r.LoadedLine h rungs) (o : ObjectRef) :
    constructorCalls o rungs =
      (((rungs.map Rung.cls).filter fun c => (r.classes.get c).instrumented).reverse.map fun c =>
        Event.called ⟨c, constructorBodyName, .object o, [], []⟩) := by
  rw [hr.filter_instrumented, ← List.map_reverse, List.map_map]
  rfl

/-- **Constructor chains.** Let classes stand one above the other, each with nothing to call but the
constructor that constructs the next, and let any of them be instrumented, as the policy says, for a
handler that wants no declared bodies to run and answers null. If calls may be nested as deep as there
are classes, a new instance of the first is made: its class stands below the others, and the handler
has been told once of each instrumented class, the root's first, by the name of the constructor's body,
with the new object as the receiver and without arguments. -/
theorem newInstance_tells_from_the_root {work : Instrumentation} {file : ClassFile}
    {above : List ClassFile} (horderly : m.realm.Orderly)
    (hkind : (m.realm.loader m.entry).kind = .instrumenting work)
    (hline : ClassFile.Line (file :: above)) (hprovides : m.realm.Provides work (file :: above))
    (hentry : m.realm.Awaits work.handler m.entry (file :: above))
    (hparent : m.realm.Awaits work.handler work.parent (file :: above))
    (hrecords : (handlers work.handler).Records)
    (hdepth : m.depth + (file :: above).length ≤ m.maxDepth) :
    let o : ObjectRef := ⟨m.heap.objects.size⟩
    ∃ m', ComesTo (fun n => (Request.newInstance file.name "()V" []).run (executeWith handlers n)) m
        (.ok (.object o), m') ∧
      let lineage := m'.classes.lineage (m'.classOf o)
      lineage.map (fun c => ((m'.cls c).name, (m'.cls c).instrumented)) =
          (work.policy.marks (file :: above)).map (fun p => (p.1.name, p.2)) ∧
        m'.journal = m.journal ++ ((lineage.filter fun c => (m'.cls c).instrumented).reverse.map
          fun c => Event.called ⟨c, constructorBodyName, .object o, [], []⟩).toArray := by
  obtain ⟨c, r, hload, rungs, hstanding, hmarks, hhead⟩ :=
    Load.load_raises horderly hkind hline hprovides hentry hparent file rfl
  have hfiles : rungs.map Rung.file = file :: above := by
    rw [← work.policy.map_fst_marks (file :: above), ← hmarks, List.map_map]
    rfl
  obtain ⟨s, hs, rfl⟩ := Option.map_eq_some_iff.1 hhead
  obtain ⟨rest, rfl⟩ := List.head?_eq_some_iff.1 hs
  have hnames : ((s :: rest).map fun t => t.file.name).Nodup := by
    have hnodup := hline.nodup hprovides.eq_of_name_eq
    rw [← hfiles, List.map_map] at hnodup
    exact hnodup
  have hlength : (s :: rest).length = (file :: above).length := by
    rw [← hfiles, List.length_map]
  obtain ⟨m', hcomes, hstands, hclass, hjournal⟩ :=
    Run.comesTo_newInstance hrecords hload hstanding hnames (hlength ▸ hdepth)
  refine ⟨m', hcomes, ?_⟩
  have hlineage : m'.classes.lineage (m'.classOf ⟨m.heap.objects.size⟩) = (s :: rest).map Rung.cls :=
    hclass ▸ hstands.lineage_eq
  dsimp only
  rw [hlineage]
  refine ⟨?_, ?_⟩
  · rw [← hmarks]
    exact hstands.map_name_instrumented
  · rw [hjournal, constructorCalls_eq hstands]
    rfl

end NewInstance

/-! ### Three classes -/

/-- The constructor of a class that only constructs another one. -/
def stepConstructor (superName : Option String) : MethodDef :=
  ⟨constructorName, "()V", Modifier.visible.bit, [], 1, Code.encode
    ((if superName.isSome then [.loadLocal 0, .invoke .special 0] else []) ++ [.simple .retVoid])⟩

/-- Such a class, marked to be instrumented or not. -/
def stepFile (name : String) (superName : Option String) (marked : Bool) : ClassFile where
  name := name
  superName := superName
  annotations := if marked then [instrumentMark] else []
  constants := { methods := superName.toList.map fun s => ⟨s, constructorName, "()V"⟩ }
  methods := [stepConstructor superName]

theorem stepFile_onlyConstructs (name : String) (superName : Option String) (marked : Bool) :
    (stepFile name superName marked).OnlyConstructs (stepConstructor superName) where
  methods := rfl
  name := rfl
  descriptor := rfl
  static := (by decide : Access.has Modifier.visible.bit .static = false)
  code := by
    cases superName with
    | none => exact ⟨[], rfl, by decide +kernel⟩
    | some super =>
      refine ⟨_, ⟨0, rfl, rfl⟩, ?_⟩
      show Code.decode (Code.encode [.loadLocal 0, .invoke .special 0, .simple .retVoid]) = _
      decide +kernel
  marker := nofun

/-- The steps of a stair, the lowest first. The lowest and the highest are marked. -/
def stairFiles : List ClassFile :=
  [stepFile "t.Low" (some "t.Mid") true, stepFile "t.Mid" (some "t.High") false,
    stepFile "t.High" none true]

theorem stairFiles_line : ClassFile.Line stairFiles :=
  .cons (.cons (.cons .nil (stepFile_onlyConstructs _ _ _) rfl) (stepFile_onlyConstructs _ _ _) rfl)
    (stepFile_onlyConstructs _ _ _) rfl

/-- Instrumenting what is marked, over an empty cache. -/
def stairWork : Instrumentation :=
  ⟨⟨0⟩, ({} : Policy).decisions, ⟨.memory ⟨0⟩, cacheVersion, true⟩, ⟨0⟩⟩

/-- A machine that does so, and that nests three calls at most. -/
def stairMachine : Machine where
  realm := {
    loaders := #[{ kind := .bootstrap }, { kind := .instrumenting stairWork }]
    resources := { classes := stairFiles.map fun file => (file.name, file.encode) }
    storage := { stores := #[{}] } }
  maxDepth := 3
  entry := ⟨1⟩

theorem stairMachine_unused : stairMachine.realm.Unused where
  idle l := by
    rcases l with ⟨_ | _ | index⟩ <;> rfl
  parents l work hl := by
    rcases l with ⟨_ | _ | index⟩
    · cases hl
    · cases hl
      exact ⟨by decide, rfl⟩
    · cases hl
  classes := rfl
  forgets l := by
    rcases l with ⟨_ | _ | index⟩ <;> rfl

theorem storable_of_mem_stairFiles : ∀ file ∈ stairFiles, ClassFile.Storable file := by
  decide +kernel

theorem storable_of_transform_stairFiles : ∀ file ∈ stairFiles, ∀ file',
    file.transform = .ok file' → ClassFile.Storable file' := by
  have htransform : ∀ file ∈ stairFiles,
      file.transform = .ok (file.transform.toOption.getD default) := by decide +kernel
  intro file hfile file' ht
  cases (htransform file hfile).symm.trans ht
  clear ht
  revert file hfile
  decide +kernel

theorem stairMachine_provides : stairMachine.realm.Provides stairWork stairFiles where
  source s _ := by
    have hverify : ∀ file ∈ stairFiles, file.verify = .ok () := by decide +kernel
    have hheld : ∀ file ∈ stairFiles,
        stairMachine.realm.resources.held file.name = .ok (some file.encode) := by
      rw [stairFiles, List.forall_mem_cons, List.forall_mem_cons, List.forall_mem_singleton]
      exact ⟨rfl, rfl, rfl⟩
    intro file hfile
    have hdecode := ClassFile.decode_encode (storable_of_mem_stairFiles file hfile)
    show ClassFile.ofRead file.name (stairMachine.realm.resources.held file.name) = .ok file
    rw [hheld file hfile, ClassFile.ofRead, hdecode]
    dsimp only
    rw [if_neg (fun hne => hne rfl), hverify file hfile]
  genuine := fun name bytes hb => nomatch hb
  storable file hfile _ := storable_of_transform_stairFiles file hfile

/-- Of the three, the highest and the lowest are told of, in this order. -/
theorem stairMachine_tells :
    stairMachine.realm.Orderly ∧
      (stairMachine.realm.loader stairMachine.entry).kind = .instrumenting stairWork ∧
      ClassFile.Line stairFiles ∧ stairMachine.realm.Provides stairWork stairFiles ∧
      stairMachine.realm.Awaits ⟨0⟩ ⟨1⟩ stairFiles ∧ stairMachine.realm.Awaits ⟨0⟩ ⟨0⟩ stairFiles ∧
      (recorders ⟨0⟩).Records ∧ stairMachine.depth + stairFiles.length ≤ stairMachine.maxDepth ∧
      ∃ m', ComesTo (fun n => (Request.newInstance "t.Low" "()V" []).run (executeWith recorders n))
          stairMachine (.ok (.object ⟨0⟩), m') ∧
        let lineage := m'.classes.lineage (m'.classOf ⟨0⟩)
        lineage.map (fun c => ((m'.cls c).name, (m'.cls c).instrumented)) =
            [("t.Low", true), ("t.Mid", false), ("t.High", true)] ∧
          m'.journal = ((lineage.filter fun c => (m'.cls c).instrumented).reverse.map
            fun c => Event.called ⟨c, constructorBodyName, .object ⟨0⟩, [], []⟩).toArray := by
  have horderly := stairMachine_unused.orderly
  have hentry : stairMachine.realm.Awaits ⟨0⟩ ⟨1⟩ stairFiles := Realm.awaits_of_unused rfl rfl
  have hparent : stairMachine.realm.Awaits ⟨0⟩ ⟨0⟩ stairFiles := Realm.awaits_of_unused rfl rfl
  have hrecords : (recorders ⟨0⟩).Records := ⟨fun _ _ => rfl, fun _ => rfl⟩
  have hdepth : stairMachine.depth + stairFiles.length ≤ stairMachine.maxDepth := by decide +kernel
  refine ⟨horderly, rfl, stairFiles_line, stairMachine_provides, hentry, hparent, hrecords, hdepth,
    ?_⟩
  obtain ⟨m', hcomes, hlineage, hjournal⟩ := newInstance_tells_from_the_root horderly rfl
    stairFiles_line stairMachine_provides hentry hparent hrecords hdepth
  refine ⟨m', hcomes, hlineage.trans (by decide +kernel), hjournal.trans ?_⟩
  exact Array.empty_append

end Interpose
