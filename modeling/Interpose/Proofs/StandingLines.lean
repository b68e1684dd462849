import Interpose.Proofs.Layouts
import Interpose.Proofs.LineLoads
/-!
# Lines that stand

What there is to say of the classes of a line once they are loaded. The names, and who is
instrumented, are those of the class files; each class finds the constructor in the place that it has
been given, and the one above through its own loader; nobody has a static initializer. A new instance
of the first class has a marker for every instrumented class of the line, and no object is in any of
them.

## Main results

* `Realm.LoadedLine.lineage_eq`
* `Realm.LoadedLine.declaredMethod?_constructor`, `Realm.LoadedLine.declaredMethod?_initializer`
* `Realm.LoadedLine.exists_marker`
-/

namespace Interpose

/-! ### Methods by their names -/

/-- A class finds methods as its class file lists them. -/
theorem LoadedClass.declaredMethod?_of_define {definer : Definer}
    {superclass? : Option (ClassRef × LoadedClass)} {file : ClassFile} {k : LoadedClass}
    (h : define definer superclass? file = .ok k) (name descriptor : String) :
    k.declaredMethod? name descriptor =
      lastIndex? (fun d => d.name == name && d.descriptor == descriptor) file.methods := by
  obtain ⟨methods, layout, hmethods, -, rfl⟩ := define_eq_ok h
  obtain ⟨hlength, hget⟩ := Results.mapM_eq_ok hmethods
  have hkeys : methods.map (fun m => (m.name, m.descriptor)) =
      file.methods.map fun d => (d.name, d.descriptor) := by
    refine List.ext_getElem? fun i => ?_
    rw [List.getElem?_map, List.getElem?_map]
    cases hd : file.methods[i]? with
    | none =>
      rw [List.getElem?_eq_none (hlength ▸ List.getElem?_eq_none_iff.1 hd)]
      rfl
    | some d =>
      obtain ⟨m, hm, hdefine⟩ := hget i d hd
      obtain ⟨_, _, -, -, rfl⟩ := LoadedMethod.define_eq_ok hdefine
      rw [hm]
      rfl
  let fits : String × String → Bool := fun key => key.1 == name && key.2 == descriptor
  exact (lastIndex?_map fits _ methods).symm.trans (hkeys ▸ lastIndex?_map fits _ file.methods)

namespace ClassFile

variable {file used : ClassFile} {definer : Definer} {h : HandlerRef} {d : MethodDef}

/-- What the pool of the class file has, the class has. -/
theorem UsedAs.extends_constants (hu : file.UsedAs definer h used) :
    file.constants.Extends used.constants := by
  cases hu with
  | stored => exact .refl _
  | instrumented _ _ ht _ =>
    obtain ⟨_, _, _, _, hi⟩ := exists_instrumented_of_transform ht
    exact (Instrument.splitMethods_eq_ok hi.split).2.2.1.trans hi.grows

/-- A constructor that has been split stands behind its body. -/
theorem UsedAs.lastIndex?_constructor (hu : file.UsedAs definer h used)
    (hform : file.OnlyConstructs d) :
    lastIndex? (fun e => e.name == constructorName && e.descriptor == "()V") used.methods =
      some definer.instrumented.toNat := by
  cases hu with
  | stored plain =>
    rw [hform.methods, plain, lastIndex?, lastIndex?, hform.name, hform.descriptor]
    rfl
  | instrumented marked _ ht _ =>
    obtain ⟨body, entry, pool, hmethods, -, hsplit⟩ := hform.methods_of_transform ht
    obtain ⟨_, _, _, _, _, -, -, -, -, rfl, rfl⟩ := Instrument.splitConstructor_eq_ok hsplit
    rw [hmethods, marked]
    simp only [lastIndex?, hform.descriptor]
    rfl

/-- There is no static initializer. -/
theorem UsedAs.lastIndex?_initializer (hu : file.UsedAs definer h used)
    (hform : file.OnlyConstructs d) :
    lastIndex? (fun e => e.name == staticInitializerName && e.descriptor == "()V") used.methods =
      none := by
  refine lastIndex?_eq_none.2 fun e he => ?_
  suffices hname : e.name ≠ staticInitializerName by
    rw [beq_eq_false_iff_ne.2 hname]
    rfl
  cases hu with
  | stored =>
    rw [hform.methods] at he
    rw [List.mem_singleton.1 he, hform.name]
    decide
  | instrumented _ _ ht _ =>
    obtain ⟨body, entry, pool, hmethods, -, hsplit⟩ := hform.methods_of_transform ht
    obtain ⟨_, _, _, _, _, -, -, -, -, rfl, rfl⟩ := Instrument.splitConstructor_eq_ok hsplit
    rw [hmethods] at he
    rcases List.mem_cons.1 he with rfl | he
    · exact (by decide : constructorBodyName ≠ staticInitializerName)
    · rw [List.mem_singleton.1 he]
      exact (by decide : constructorName ≠ staticInitializerName)

end ClassFile

namespace Realm.LoadedLine

variable {r : Realm} {h : HandlerRef} {s : Rung} {rest rungs upper : List Rung}

/-! ### The classes -/

theorem of_suffix (hr : r.LoadedLine h rungs) (hs : upper <:+ rungs) : r.LoadedLine h upper := by
  induction hr with
  | nil =>
    rw [List.suffix_nil.1 hs]
    exact .nil
  | cons above form verified next use live has define fixed found ih =>
    rcases List.suffix_cons_iff.1 hs with rfl | hs
    · exact .cons above form verified next use live has define fixed found
    · exact ih hs

theorem name (hr : r.LoadedLine h (s :: rest)) : (r.classes.get s.cls).name = s.file.name := by
  cases hr with
  | cons _ _ _ _ use _ _ define fixed _ =>
    obtain ⟨_, _, -, -, rfl⟩ := LoadedClass.define_eq_ok define
    exact (LoadedClass.name_eq_of_fixed fixed).trans use.name

theorem superName_eq (hr : r.LoadedLine h (s :: rest)) :
    s.file.superName = rest.head?.map fun t => t.file.name := by
  cases hr with
  | cons _ _ _ next => exact next

theorem instrumented (hr : r.LoadedLine h (s :: rest)) :
    (r.classes.get s.cls).instrumented = s.instrumented := by
  cases hr with
  | cons _ _ _ _ _ _ _ define fixed _ =>
    obtain ⟨_, _, -, -, rfl⟩ := LoadedClass.define_eq_ok define
    exact LoadedClass.instrumented_eq_of_fixed fixed

theorem extends_constants (hr : r.LoadedLine h (s :: rest)) :
    s.file.constants.Extends (r.classes.get s.cls).constants := by
  cases hr with
  | cons _ _ _ _ use _ _ define fixed _ =>
    obtain ⟨_, _, -, -, rfl⟩ := LoadedClass.define_eq_ok define
    rw [LoadedClass.constants_eq_of_fixed fixed]
    exact use.extends_constants

theorem hasLiveLoader (hr : r.LoadedLine h (s :: rest)) : r.hasLiveLoader s.cls = true := by
  cases hr with
  | cons _ _ _ _ _ live _ define fixed _ =>
    obtain ⟨_, _, -, -, rfl⟩ := LoadedClass.define_eq_ok define
    exact congrArg (!·) ((congrArg LoadedClass.orphan fixed).trans live)

/-- A class finds the one above through its own loader. -/
theorem loaded?_next (hr : r.LoadedLine h (s :: rest)) :
    ∀ t ∈ rest.head?, r.loaded? (r.classes.get s.cls).loader t.file.name = some t.cls := by
  cases hr with
  | cons _ _ _ _ _ _ _ define fixed found =>
    obtain ⟨_, _, -, -, rfl⟩ := LoadedClass.define_eq_ok define
    rw [LoadedClass.loader_eq_of_fixed fixed]
    exact found

/-- **Constructors** are found in their places. -/
theorem declaredMethod?_constructor (hr : r.LoadedLine h (s :: rest)) :
    (r.classes.get s.cls).declaredMethod? constructorName "()V" = some s.instrumented.toNat := by
  cases hr with
  | cons _ form _ _ use _ _ define fixed _ =>
    rw [LoadedClass.declaredMethod?, LoadedClass.methods_eq_of_fixed fixed]
    exact (LoadedClass.declaredMethod?_of_define define _ _).trans (use.lastIndex?_constructor form)

/-- **Static initializers** there are none. -/
theorem declaredMethod?_initializer (hr : r.LoadedLine h (s :: rest)) :
    (r.classes.get s.cls).declaredMethod? staticInitializerName "()V" = none := by
  cases hr with
  | cons _ form _ _ use _ _ define fixed _ =>
    rw [LoadedClass.declaredMethod?, LoadedClass.methods_eq_of_fixed fixed]
    exact (LoadedClass.declaredMethod?_of_define define _ _).trans (use.lastIndex?_initializer form)

/-! ### The line -/

/-- Classes of a line with the class files that they were defined from. -/
def links (rungs : List Rung) : List (ClassRef × ClassFile) := rungs.map fun s => (s.cls, s.used)

/-- A line that stands is a chain. -/
theorem chain (hr : r.LoadedLine h rungs) : r.classes.Chain (links rungs) := by
  induction hr with
  | nil => exact .nil
  | @cons c file used rest d definer k above form verified next use live has define fixed found ih =>
    have hdefine : LoadedClass.define definer
        ((links rest).head?.map fun q => (q.1, r.classes.get q.1)) used = .ok k := by
      rw [links, List.head?_map, Option.map_map]
      rw [Option.map_map] at define
      exact define
    exact .cons ih hdefine fixed

theorem lineage_eq (hr : r.LoadedLine h (s :: rest)) :
    r.classes.lineage s.cls = (s :: rest).map Rung.cls := by
  rw [ClassTable.Chain.lineage_eq hr.chain, List.map_map, List.map_cons]
  rfl

/-- The names of the classes, and which of them are instrumented. -/
theorem map_name_instrumented (hr : r.LoadedLine h rungs) :
    (rungs.map Rung.cls).map (fun c => ((r.classes.get c).name, (r.classes.get c).instrumented)) =
      (rungs.map Rung.mark).map fun p => (p.1.name, p.2) := by
  induction rungs with
  | nil => rfl
  | cons s rest ih =>
    simp only [List.map_cons, Rung.mark, hr.name, hr.instrumented,
      ih (hr.of_suffix (List.suffix_cons s rest))]

theorem filter_instrumented (hr : r.LoadedLine h rungs) :
    (rungs.map Rung.cls).filter (fun c => (r.classes.get c).instrumented) =
      (rungs.filter Rung.instrumented).map Rung.cls := by
  induction rungs with
  | nil => rfl
  | cons s rest ih =>
    rw [List.map_cons, List.filter_cons, List.filter_cons, hr.instrumented,
      ih (hr.of_suffix (List.suffix_cons s rest))]
    split <;> rfl

/-! ### Instances -/

/-- **Markers.** What a new instance of the first class has for every instrumented class of the line:
a slot with no object in it. -/
theorem exists_marker (hr : r.LoadedLine h (s :: rest)) {t : Rung} (ht : t ∈ s :: rest)
    (hinstrumented : t.instrumented = true) :
    ∃ slot v, (r.classes.get t.cls).declaredField? markerFieldName = some slot ∧
      (r.classes.get s.cls).fieldDefaults[slot]? = some v ∧ ∀ o, v ≠ .object o := by
  obtain ⟨before, after, heq⟩ := List.append_of_mem ht
  have hupper : r.LoadedLine h (t :: after) := hr.of_suffix (heq ▸ List.suffix_append _ _)
  have hfield : ∃ f ∈ t.used.fields, f.isStatic = false ∧ f.name = markerFieldName := by
    cases hupper with
    | cons _ form _ _ use _ _ _ _ _ =>
      cases use with
      | stored plain => exact nomatch plain.symm.trans hinstrumented
      | instrumented _ _ transform _ => exact form.exists_marker_of_transform transform
  obtain ⟨slot, hslot⟩ := Option.isSome_iff_exists.1
    ((ClassTable.Chain.isSome_declaredField? hupper.chain markerFieldName).2 hfield)
  have hlink : (t.cls, t.used) ∈ links (s :: rest) := List.mem_map.2 ⟨t, ht, rfl⟩
  have hlt : slot < (r.classes.get s.cls).fieldDefaults.size :=
    hr.chain.declaredField?_lt hlink hslot
  refine ⟨slot, _, hslot, Array.getElem?_eq_getElem hlt, fun o ho => ?_⟩
  -- Every slot starts at the zero of some type, and that is never an object.
  have hzeros := List.forall₂_iff_get.1 hr.chain.forall₂_defaults
  obtain ⟨u, -, hu⟩ := hzeros.2 slot (by rw [hzeros.1]; exact hlt) hlt
  have hzero : (r.classes.get s.cls).fieldDefaults[slot] = .zeroFor u := hu
  rw [hzero] at ho
  cases u <;> cases ho

end Realm.LoadedLine

end Interpose
