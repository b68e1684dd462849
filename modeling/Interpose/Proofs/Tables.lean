import Interpose.Class.Table
import Interpose.Proofs.Results
import Interpose.Verifier
/-!
# What the class table keeps

Of a loaded class only the progress of its initialization and the content of its static fields ever
change. The rest is *fixed*. A table only grows, and what is fixed of a class once loaded stays as
it is.

A table is *founded* if each of its classes was defined from a verified class file, below a class
that stands before it. Both facts about superclasses that execution relies on follow: they are there,
and a class has the slots of each of them.

## Main definitions

* `LoadedClass.fixed`, `ClassTable.Extends`
* `ClassTable.Founded`

## Main results

* `ClassTable.Founded.slotCount_le`: a class has the slots of its superclasses
-/

namespace Interpose

namespace LoadedClass

/-- The class without what execution changes of it. -/
def fixed (k : LoadedClass) : LoadedClass := { k with state := .uninitialized, statics := #[] }

section Fixed

variable {k k' : LoadedClass} (h : k.fixed = k'.fixed)
include h

theorem name_eq_of_fixed : k.name = k'.name := congrArg (·.name) h

theorem loader_eq_of_fixed : k.loader = k'.loader := congrArg (·.loader) h

theorem ancestors_eq_of_fixed : k.ancestors = k'.ancestors := congrArg (·.ancestors) h

theorem constants_eq_of_fixed : k.constants = k'.constants := congrArg (·.constants) h

theorem methods_eq_of_fixed : k.methods = k'.methods := congrArg (·.methods) h

theorem fieldSlots_eq_of_fixed : k.fieldSlots = k'.fieldSlots := congrArg (·.fieldSlots) h

theorem fieldDefaults_eq_of_fixed : k.fieldDefaults = k'.fieldDefaults :=
  congrArg (·.fieldDefaults) h

theorem slotCount_eq_of_fixed : k.slotCount = k'.slotCount :=
  congrArg Array.size (fieldDefaults_eq_of_fixed h)

theorem instrumented_eq_of_fixed : k.instrumented = k'.instrumented :=
  congrArg (·.instrumented) h

theorem handler_eq_of_fixed : k.handler? = k'.handler? := congrArg (·.handler?) h

end Fixed

/-- The superclasses of a class below a given one. -/
def ancestorsBelow : Option (ClassRef × LoadedClass) → List ClassRef
  | some (ref, s) => ref :: s.ancestors
  | none => []

/-- The slots that a class inherits. -/
def inheritedSlots : Option (ClassRef × LoadedClass) → Array Value
  | some (_, s) => s.fieldDefaults
  | none => #[]

/-- A definition prepares the methods and lays out the fields. -/
theorem define_eq_ok {definer : Definer} {superclass? : Option (ClassRef × LoadedClass)}
    {file : ClassFile} {k : LoadedClass} (h : define definer superclass? file = .ok k) :
    ∃ methods layout, file.methods.mapM (LoadedMethod.define file.name) = .ok methods ∧
      Layout.addAll file.name { fieldDefaults := inheritedSlots superclass? } file.fields =
        .ok layout ∧
      k = {
        name := file.name
        loader := definer.loader
        orphan := definer.orphan
        ancestors := ancestorsBelow superclass?
        constants := file.constants
        annotations := file.annotations
        methods := methods
        fieldSlots := layout.fieldSlots
        fieldDefaults := layout.fieldDefaults
        staticSlots := layout.staticSlots
        statics := layout.statics
        state := .uninitialized
        instrumented := definer.instrumented
        handler? := if definer.instrumented then definer.handler? else none } := by
  unfold define at h
  obtain ⟨methods, hmethods, h⟩ := Results.bind_eq_ok h
  obtain ⟨layout, hlayout, h⟩ := Results.bind_eq_ok h
  cases h
  refine ⟨methods, layout, hmethods, ?_, ?_⟩
  · cases superclass? <;> exact hlayout
  · cases superclass? <;> rfl

/-- A class file is defined if its methods can be prepared and its fields laid out. -/
theorem exists_define_of_parts {definer : Definer} {superclass? : Option (ClassRef × LoadedClass)}
    {file : ClassFile} {methods : List LoadedMethod} {layout : Layout}
    (hmethods : file.methods.mapM (LoadedMethod.define file.name) = .ok methods)
    (hlayout : Layout.addAll file.name { fieldDefaults := inheritedSlots superclass? } file.fields =
      .ok layout) : ∃ k, define definer superclass? file = .ok k := by
  cases superclass? <;> simp only [inheritedSlots] at hlayout <;>
    exact ⟨_, by simp only [define, hmethods, hlayout, bind, Except.bind]; rfl⟩

end LoadedClass

/-! ### Layouts -/

namespace Layout

variable {layout layout' : Layout} {owner : String} {fields : List FieldDef}

theorem size_le_add {name : String} {isStatic : Bool} {t : TypeDesc} :
    layout.fieldDefaults.size ≤ (layout.add name isStatic t).fieldDefaults.size := by
  unfold add
  split
  · exact Nat.le_refl _
  · rw [Array.size_push]
    exact Nat.le_succ _

/-- Laying out one field after the other. -/
theorem addAll_cons {f : FieldDef} (h : addAll owner layout (f :: fields) = .ok layout') :
    ∃ t, TypeDesc.parse f.descriptor = .ok t ∧
      addAll owner (layout.add f.name f.isStatic t) fields = .ok layout' := by
  unfold addAll at h
  split at h
  · cases h
  · exact ⟨_, ‹_›, h⟩

theorem size_le_addAll (h : addAll owner layout fields = .ok layout') :
    layout.fieldDefaults.size ≤ layout'.fieldDefaults.size := by
  induction fields generalizing layout with
  | nil => cases h; exact Nat.le_refl _
  | cons f rest ih =>
    obtain ⟨t, -, h⟩ := addAll_cons h
    exact Nat.le_trans size_le_add (ih h)

end Layout

namespace ClassTable

variable {t t' t'' : ClassTable}

/-- Whether a reference denotes a class of the table. -/
def Has (t : ClassTable) (c : ClassRef) : Prop := c.index < t.classes.size

instance (t : ClassTable) (c : ClassRef) : Decidable (t.Has c) :=
  inferInstanceAs (Decidable (_ < _))

/-- A class that the table does not have has no members. -/
theorem has_of_get_ne {c : ClassRef} (h : t.get c ≠ default) : t.Has c := by
  refine Decidable.byContradiction fun hlt => h ?_
  rw [get, Array.getD_eq_getD_getElem?, Array.getElem?_eq_none (Nat.le_of_not_lt hlt),
    Option.getD_none]

/-! ### Growth -/

/-- The second table has the classes of the first. -/
structure Extends (t t' : ClassTable) : Prop where
  size_le : t.classes.size ≤ t'.classes.size
  fixed_eq : ∀ c, t.Has c → (t'.get c).fixed = (t.get c).fixed

theorem Extends.refl (t : ClassTable) : t.Extends t :=
  ⟨Nat.le_refl _, fun _ _ => rfl⟩

theorem Extends.has (h : t.Extends t') {c : ClassRef} (hc : t.Has c) : t'.Has c :=
  Nat.lt_of_lt_of_le hc h.size_le

theorem Extends.trans (h : t.Extends t') (h' : t'.Extends t'') : t.Extends t'' :=
  ⟨Nat.le_trans h.size_le h'.size_le, fun c hc =>
    (h'.fixed_eq c (h.has hc)).trans (h.fixed_eq c hc)⟩

theorem get_add_of_has {k : LoadedClass} {c : ClassRef} (hc : t.Has c) :
    (t.add k).2.get c = t.get c := by
  show (t.classes.push k).getD c.index default = t.classes.getD c.index default
  rw [Array.getD_eq_getD_getElem?, Array.getD_eq_getD_getElem?, Array.getElem?_push_lt hc,
    Array.getElem?_eq_getElem hc]

theorem get_add_self {k : LoadedClass} : (t.add k).2.get (t.add k).1 = k := by
  show (t.classes.push k).getD t.classes.size default = k
  rw [Array.getD_eq_getD_getElem?, Array.getElem?_push_size]
  rfl

theorem size_add {k : LoadedClass} : (t.add k).2.classes.size = t.classes.size + 1 :=
  Array.size_push _

/-- What is not there before a class is added is the class. -/
theorem eq_of_has_add {k : LoadedClass} {c : ClassRef} (hc : (t.add k).2.Has c)
    (hnew : ¬ t.Has c) : c = (t.add k).1 := by
  have hsize := @size_add t k
  unfold Has at hc hnew
  cases c
  refine congrArg ClassRef.mk ?_
  show _ = t.classes.size
  simp only at hc hnew
  omega

theorem extends_add (k : LoadedClass) : t.Extends (t.add k).2 :=
  ⟨by rw [size_add]; omega, fun _ hc => congrArg LoadedClass.fixed (get_add_of_has hc)⟩

/-- A change of a class that leaves alone what is fixed. -/
theorem fixed_get_modify {c : ClassRef} {f : LoadedClass → LoadedClass}
    (hf : ∀ k, (f k).fixed = k.fixed) (a : ClassRef) :
    ((t.modify c f).get a).fixed = (t.get a).fixed := by
  show ((t.classes.modify c.index f).getD a.index default).fixed =
    (t.classes.getD a.index default).fixed
  rw [Array.getD_eq_getD_getElem?, Array.getD_eq_getD_getElem?, Array.getElem?_modify]
  by_cases hc : c.index = a.index
  · rw [if_pos hc]
    cases t.classes[a.index]? with
    | none => rfl
    | some k => exact hf k
  · rw [if_neg hc]

theorem size_modify {c : ClassRef} {f : LoadedClass → LoadedClass} :
    (t.modify c f).classes.size = t.classes.size :=
  Array.size_modify

theorem extends_modify {c : ClassRef} {f : LoadedClass → LoadedClass}
    (hf : ∀ k, (f k).fixed = k.fixed) : t.Extends (t.modify c f) :=
  ⟨Nat.le_of_eq size_modify.symm, fun a _ => fixed_get_modify hf a⟩

/-! ### Foundation -/

/-- The class at a reference was defined from a verified class file, below an earlier class. -/
structure FoundedAt (t : ClassTable) (c : ClassRef) (definer : Definer)
    (superclass? : Option ClassRef) (file : ClassFile) : Prop where
  verify : file.verify = .ok ()
  before : ∀ s, superclass? = some s → s.index < c.index
  define : ∃ k, LoadedClass.define definer (superclass?.map fun s => (s, t.get s)) file = .ok k ∧
    (t.get c).fixed = k.fixed

/-- Each class was defined from a verified class file. -/
def Founded (t : ClassTable) : Prop :=
  ∀ c, t.Has c → ∃ definer superclass? file, t.FoundedAt c definer superclass? file

/-- A definition looks at nothing but what is fixed of the superclass. -/
theorem define_congr {definer : Definer} {superclass? : Option ClassRef} {file : ClassFile}
    (h : ∀ s, superclass? = some s → (t'.get s).fixed = (t.get s).fixed) :
    LoadedClass.define definer (superclass?.map fun s => (s, t'.get s)) file =
      LoadedClass.define definer (superclass?.map fun s => (s, t.get s)) file := by
  cases superclass? with
  | none => rfl
  | some s =>
    have hs := h s rfl
    show LoadedClass.define definer (some (s, t'.get s)) file =
      LoadedClass.define definer (some (s, t.get s)) file
    simp only [LoadedClass.define, LoadedClass.fieldDefaults_eq_of_fixed hs,
      LoadedClass.ancestors_eq_of_fixed hs]

theorem FoundedAt.extends {c : ClassRef} {definer : Definer} {superclass? : Option ClassRef}
    {file : ClassFile} (h : t.FoundedAt c definer superclass? file) (ht : t.Extends t')
    (hc : t.Has c) : t'.FoundedAt c definer superclass? file := by
  obtain ⟨hv, hb, k, hk, hfix⟩ := h
  refine ⟨hv, hb, k, ?_, (ht.fixed_eq c hc).trans hfix⟩
  rw [define_congr fun s hs => ht.fixed_eq s (Nat.lt_trans (hb s hs) hc)]
  exact hk

theorem Founded.modify {c : ClassRef} {f : LoadedClass → LoadedClass} (h : t.Founded)
    (hf : ∀ k, (f k).fixed = k.fixed) : (t.modify c f).Founded := by
  intro a ha
  have ha' : t.Has a := by
    unfold Has at ha ⊢
    rwa [size_modify] at ha
  obtain ⟨definer, superclass?, file, hat⟩ := h a ha'
  exact ⟨definer, superclass?, file, hat.extends (extends_modify hf) ha'⟩

theorem Founded.add {definer : Definer} {superclass? : Option ClassRef} {file : ClassFile}
    {k : LoadedClass} (h : t.Founded) (hs : ∀ s, superclass? = some s → t.Has s)
    (hv : file.verify = .ok ())
    (hk : LoadedClass.define definer (superclass?.map fun s => (s, t.get s)) file = .ok k) :
    (t.add k).2.Founded := by
  intro c hc
  by_cases hlt : t.Has c
  · obtain ⟨definer, superclass?, file, hat⟩ := h c hlt
    exact ⟨definer, superclass?, file, hat.extends (extends_add k) hlt⟩
  · obtain rfl : c = (t.add k).1 := eq_of_has_add hc hlt
    refine ⟨definer, superclass?, file, hv, hs, k, ?_, congrArg _ get_add_self⟩
    rw [define_congr fun s h => congrArg LoadedClass.fixed (get_add_of_has (hs s h))]
    exact hk

/-- **Slots.** The superclasses of a class are classes of the table, and the class has a slot
wherever one of them has one. The induction is on the position of the class: its superclass stands
before it. -/
theorem Founded.slotCount_le (h : t.Founded) {c : ClassRef} (hc : t.Has c) :
    ∀ a ∈ t.lineage c, t.Has a ∧ (t.get a).slotCount ≤ (t.get c).slotCount := by
  obtain ⟨n, hn⟩ : ∃ n, c.index = n := ⟨_, rfl⟩
  induction n using Nat.strongRecOn generalizing c with
  | ind n ih =>
    intro a ha
    rcases List.mem_cons.1 ha with rfl | ha
    · exact ⟨hc, Nat.le_refl _⟩
    obtain ⟨definer, superclass?, file, -, hbefore, k, hk, hfix⟩ := h c hc
    obtain ⟨methods, layout, -, hlayout, rfl⟩ := LoadedClass.define_eq_ok hk
    rw [LoadedClass.ancestors_eq_of_fixed hfix] at ha
    rw [LoadedClass.slotCount_eq_of_fixed hfix]
    cases superclass? with
    | none => cases ha
    | some s =>
      have hs : s.index < c.index := hbefore s rfl
      obtain ⟨hhas, hle⟩ := ih s.index (hn ▸ hs) (Nat.lt_trans hs hc) rfl a ha
      exact ⟨hhas, Nat.le_trans hle (Layout.size_le_addAll hlayout)⟩

theorem founded_empty : ({} : ClassTable).Founded := fun _ hc => absurd hc (Nat.not_lt_zero _)

end ClassTable

end Interpose
