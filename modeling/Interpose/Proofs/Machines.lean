import Interpose.Machine.Basic
import Interpose.Proofs.Heaps
import Interpose.Proofs.Loading
/-!
# Changes of a machine

Everything that execution does to a machine is one of a few *changes*, the call depth apart. None of
them touches the call depth or looks at it, none takes a class away, and all keep a machine *sound*:
its realm is sound, and its objects have the slots of their classes.

Soundness asks for one thing of the changes themselves, that only classes of the table are
instantiated. Whoever makes changes of sound machines has to see to it.

## Main definitions

* `Machine.Change`, `Machine.Extends`, `Machine.Evolves`
* `Machine.Instantiates`
* `Machine.Sound`

## Main results

* `Machine.Change.extends`, `Machine.Change.sound`
* `Machine.Sound.instantiates`: an object has a slot wherever a superclass of its class has one
-/

namespace Interpose

/-! ### Sameness

Nothing computes whether two policies are the same, which are functions, and so with whatever a
policy is part of. The decision is classical at the policies and only there, so it can be evaluated
wherever no two instrumenting loaders meet. -/

noncomputable instance : DecidableEq AcquisitionPolicy := fun _ _ => Classical.propDecidable _

deriving noncomputable instance DecidableEq for Instrumentation, LoaderKind, Loader, Realm, Machine

namespace Machine

variable {m m' m'' : Machine}

/-! ### Machines up to the call depth -/

/-- The same machine at another call depth. -/
def atDepth (m : Machine) (d : Nat) : Machine := { m with depth := d }

section AtDepth

variable (m : Machine) (d : Nat)

@[simp] theorem realm_atDepth : (m.atDepth d).realm = m.realm := rfl

@[simp] theorem heap_atDepth : (m.atDepth d).heap = m.heap := rfl

@[simp] theorem entry_atDepth : (m.atDepth d).entry = m.entry := rfl

@[simp] theorem classes_atDepth : (m.atDepth d).classes = m.classes := rfl

@[simp] theorem cls_atDepth (c : ClassRef) : (m.atDepth d).cls c = m.cls c := rfl

@[simp] theorem classOf_atDepth (o : ObjectRef) : (m.atDepth d).classOf o = m.classOf o := rfl

@[simp] theorem depth_atDepth : (m.atDepth d).depth = d := rfl

@[simp] theorem maxDepth_atDepth : (m.atDepth d).maxDepth = m.maxDepth := rfl

@[simp] theorem atDepth_atDepth (e : Nat) : (m.atDepth d).atDepth e = m.atDepth e := rfl

@[simp] theorem atDepth_depth : m.atDepth m.depth = m := rfl

end AtDepth

/-! ### Changes -/

/-- One change of a machine. A strict one instantiates classes of the table only. -/
inductive Change (strict : Prop) : Machine → Machine → Prop
  | load (m : Machine) (l : LoaderRef) (name : String) :
    Change strict m { m with realm := (Load.load l name m.realm).2 }
  | state (m : Machine) (c : ClassRef) (s : InitState) :
    Change strict m (m.updateClasses (·.setState c s))
  | static (m : Machine) (c : ClassRef) (slot : Nat) (v : Value) :
    Change strict m (m.updateClasses (·.setStatic c slot v))
  | object (m : Machine) (c : ClassRef) (h : strict → m.classes.Has c) :
    Change strict m { m with heap := (m.heap.allocate (m.classes.newInstance c)).2 }
  | array (m : Machine) (items : Array Value) :
    Change strict m { m with heap := (m.heap.allocateArray items).2 }
  | slot (m : Machine) (o : ObjectRef) (i : Nat) (v : Value) :
    Change strict m { m with heap := m.heap.setSlot o i v }
  | element (m : Machine) (a : ArrayRef) (p : Nat) (v : Value) :
    Change strict m { m with heap := m.heap.setElement a p v }
  | event (m : Machine) (e : Event) :
    Change strict m { m with journal := m.journal.push e }

/-- The second machine has the classes of the first. -/
def Extends (m m' : Machine) : Prop := m.classes.Extends m'.classes

theorem Extends.refl (m : Machine) : m.Extends m := ClassTable.Extends.refl _

theorem Extends.trans (h : m.Extends m') (h' : m'.Extends m'') : m.Extends m'' :=
  ClassTable.Extends.trans h h'

theorem extends_atDepth (m : Machine) (d : Nat) : m.Extends (m.atDepth d) := .refl m

theorem Extends.has (h : m.Extends m') {c : ClassRef} (hc : m.classes.Has c) : m'.classes.Has c :=
  ClassTable.Extends.has h hc

theorem Change.extends {strict : Prop} (h : m.Change strict m') : m.Extends m' := by
  cases h with
  | load l name => exact (Load.load_safe False l name m.realm nofun).grows
  | state c s => exact ClassTable.extends_modify fun _ => rfl
  | static c slot v => exact ClassTable.extends_modify fun _ => rfl
  | object | array | slot | element | event => exact ClassTable.Extends.refl _

theorem Change.depth_eq {strict : Prop} (h : m.Change strict m') : m'.depth = m.depth := by
  cases h <;> rfl

theorem Change.keeps {strict : Prop} (h : m.Change strict m') : m.heap.Keeps m'.heap := by
  cases h with
  | load | state | static | array | element | event => exact .refl m.heap
  | object c hc => exact m.heap.keeps_allocate (m.classes.newInstance c)
  | slot o i v => exact m.heap.keeps_setSlot o i v

/-- What may have become of a machine in between: it has its classes and objects still, and as many
methods are entered as were. -/
structure Evolves (m m' : Machine) : Prop where
  classes : m.Extends m'
  objects : m.heap.Keeps m'.heap
  depth : m'.depth = m.depth

theorem Evolves.refl (m : Machine) : m.Evolves m := ⟨.refl m, .refl m.heap, rfl⟩

theorem Evolves.trans (h : m.Evolves m') (h' : m'.Evolves m'') : m.Evolves m'' :=
  ⟨h.classes.trans h'.classes, h.objects.trans h'.objects, h'.depth.trans h.depth⟩

/-- What evolves one call deeper evolves, once that call has been left. -/
theorem Evolves.of_deeper (h : (m.atDepth (m.depth + 1)).Evolves m') :
    m.Evolves (m'.atDepth (m'.depth - 1)) := by
  refine ⟨h.classes, h.objects, ?_⟩
  have hd : m'.depth = m.depth + 1 := h.depth
  show m'.depth - 1 = m.depth
  rw [hd, Nat.add_sub_cancel]

theorem Change.evolves {strict : Prop} (h : m.Change strict m') : m.Evolves m' :=
  ⟨h.extends, h.keeps, h.depth_eq⟩

/-- An object is an instance of a class, with the slots that go with it. -/
def Instantiates (m : Machine) (o : ObjectRef) (c : ClassRef) : Prop :=
  ∃ x, m.heap.objects[o.index]? = some x ∧ m.classes.isSubclass x.cls c = true ∧
    (m.cls c).slotCount ≤ x.slots.size

theorem Evolves.instantiates (h : m.Evolves m') {o : ObjectRef} {c : ClassRef}
    (hc : m.classes.Has c) (ho : m.Instantiates o c) : m'.Instantiates o c := by
  obtain ⟨x, hx, hsub, hslots⟩ := ho
  obtain ⟨y, hy, hcls, hsize⟩ := h.objects _ x hx
  refine ⟨y, hy, ?_, ?_⟩
  · rw [hcls]
    rcases List.mem_cons.1 (List.contains_iff_mem.1 hsub) with rfl | hancestor
    · exact List.contains_iff_mem.2 List.mem_cons_self
    · have hhas : m.classes.Has x.cls := ClassTable.has_of_get_ne fun heq => by
        rw [heq] at hancestor
        exact nomatch hancestor
      refine List.contains_iff_mem.2 (List.mem_cons_of_mem x.cls ?_)
      rw [LoadedClass.ancestors_eq_of_fixed (h.classes.fixed_eq _ hhas)]
      exact hancestor
  · rw [hsize, show (m'.cls c).slotCount = (m.cls c).slotCount from
      LoadedClass.slotCount_eq_of_fixed (h.classes.fixed_eq c hc)]
    exact hslots

/-! ### Sound machines -/

/-- An object whose slots are those of its class. -/
def Formed (m : Machine) (x : Instance) : Prop :=
  m.classes.Has x.cls ∧ x.slots.size = (m.cls x.cls).slotCount

/-- The realm is sound, and so are the objects. -/
structure Sound (m : Machine) : Prop where
  realm : m.realm.Sound
  objects : ∀ (o : Nat) x, m.heap.objects[o]? = some x → m.Formed x

theorem Formed.extends {x : Instance} (h : m.Formed x) (hm : m.Extends m') : m'.Formed x :=
  ⟨hm.has h.1, h.2.trans (LoadedClass.slotCount_eq_of_fixed (hm.fixed_eq _ h.1)).symm⟩

/-- A machine with other classes and the same heap. -/
theorem Sound.of_heap_eq (h : m.Sound) (hm : m.Extends m') (hr : m'.realm.Sound)
    (hh : m'.heap = m.heap) : m'.Sound := by
  refine ⟨hr, fun o x hx => ?_⟩
  rw [hh] at hx
  exact (h.objects o x hx).extends hm

theorem sound_realm_modify (h : m.realm.Sound) {c : ClassRef} {f : LoadedClass → LoadedClass}
    (hf : ∀ k, (f k).fixed = k.fixed) : (m.updateClasses (·.modify c f)).realm.Sound := by
  have hm : m.classes.Extends (m.classes.modify c f) := ClassTable.extends_modify hf
  exact ⟨h.founded.modify hf, fun l p hp => hm.has (h.remembered l p hp)⟩

/-- What becomes of the realm has nothing to do with the objects. -/
theorem Change.sound_realm {strict : Prop} (h : m.Change strict m') (hm : m.realm.Sound) :
    m'.realm.Sound := by
  cases h with
  | load l name =>
    exact (Load.load_safe True l name m.realm fun _ => hm).sound trivial
  | state c s => exact sound_realm_modify hm fun _ => rfl
  | static c slot v => exact sound_realm_modify hm fun _ => rfl
  | object | array | slot | element | event => exact hm

theorem Change.sound (h : m.Change True m') (hm : m.Sound) : m'.Sound := by
  have hr := h.sound_realm hm.realm
  have he := h.extends
  cases h with
  | load | state | static => exact hm.of_heap_eq he hr rfl
  | object c hc =>
    refine ⟨hm.realm, fun o x hx => ?_⟩
    rcases Nat.lt_trichotomy o m.heap.objects.size with hlt | heq | hgt
    · rw [show (m.heap.allocate (m.classes.newInstance c)).2.objects[o]? = m.heap.objects[o]?
        from Array.getElem?_push_lt hlt ▸ (Array.getElem?_eq_getElem hlt).symm] at hx
      exact hm.objects o x hx
    · subst heq
      have hself : (m.heap.allocate (m.classes.newInstance c)).2.objects[m.heap.objects.size]? =
          some (m.classes.newInstance c) := Array.getElem?_push_size
      cases hself.symm.trans hx
      exact ⟨hc trivial, rfl⟩
    · have hnone : (m.heap.allocate (m.classes.newInstance c)).2.objects[o]? = none := by
        refine Array.getElem?_eq_none ?_
        show (m.heap.objects.push _).size ≤ o
        rw [Array.size_push]
        exact hgt
      exact nomatch hnone.symm.trans hx
  | array | element | event => exact ⟨hm.realm, hm.objects⟩
  | slot o i v =>
    refine ⟨hm.realm, fun a x hx => ?_⟩
    have hx' : (m.heap.objects.modify o.index fun x =>
        { x with slots := x.slots.setIfInBounds i v })[a]? = some x := hx
    rw [Array.getElem?_modify] at hx'
    split at hx'
    · obtain ⟨y, hy, rfl⟩ := Option.map_eq_some_iff.1 hx'
      obtain ⟨hhas, hsize⟩ := hm.objects a y hy
      refine ⟨hhas, ?_⟩
      rw [Array.size_setIfInBounds]
      exact hsize
    · exact hm.objects a x hx'

/-- **Instances.** In a sound machine, an object whose class has another in its lineage has the slots
that go with it. -/
theorem Sound.instantiates (h : m.Sound) {o : ObjectRef} {x : Instance}
    (hx : m.heap.objects[o.index]? = some x) {c : ClassRef}
    (hc : m.classes.isSubclass x.cls c = true) : m.Instantiates o c := by
  obtain ⟨hhas, hsize⟩ := h.objects o.index x hx
  refine ⟨x, hx, hc, ?_⟩
  rw [hsize]
  exact (h.realm.founded.slotCount_le hhas c (List.contains_iff_mem.1 hc)).2

end Machine

end Interpose
