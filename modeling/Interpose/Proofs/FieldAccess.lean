import Interpose.Proofs.Audits
import Interpose.Proofs.Lineages
import Interpose.Proofs.PastStubs
/-!
# Access to instance fields

An instruction that reads or writes an instance field names a class and a field of it. That settles
the number of the slot. The object comes off the stack, and the instruction goes to the slot of that
number there, whatever the class of the object is: nobody compares the two classes.

If the object is one of the named class, of a subclass included, that slot is there, and it belongs
to the field. Objects of other classes may have a slot of that number too, and to what field it
belongs is then a matter of their own layout. An object that has no such slot is the one object that
the instruction refuses for its class, and a refusal changes no object.

## Main definitions

* `Frame.NamesField`: what the operand of the instruction means
* `FieldAccess.Accesses`: what the instruction does to the frame and the machine

## Main results

* `Act.fieldConstant_outcome`: the search for the slot
* `step_field_goes_by_slot`: the whole instruction
* `exists_stray_access`: an object of another class
-/

namespace Interpose

/-! ### From the operand to the slot -/

/-- What becomes of a machine when a class is looked for: nothing, or what loading it does. -/
inductive Machine.Looks (m : Machine) : Machine → Prop
  | here : Looks m m
  | load (l : LoaderRef) (name : String) :
    Looks m { m with realm := (Load.load l name m.realm).2 }

theorem Machine.Looks.heap_eq {m n : Machine} (h : m.Looks n) : n.heap = m.heap := by
  cases h <;> rfl

theorem Machine.Looks.sound {m n : Machine} (h : m.Looks n) (hm : m.Sound) : n.Sound := by
  cases h with
  | here => exact hm
  | load l name => exact (Change.load m l name).sound hm

namespace Run

variable (c : ClassRef) (name : String) (m : Machine)

theorem loadThrough_outcome (l : LoaderRef) :
    ∃ r n, loadThrough l name m = some (r, n) ∧ m.Looks n := by
  have hlooks : m.Looks _ := .load l name
  unfold loadThrough
  rcases hl : Load.load l name m.realm with ⟨e | c, r⟩ <;> rw [hl] at hlooks
  · exact ⟨_, _, rfl, hlooks⟩
  · exact ⟨_, _, rfl, hlooks⟩

theorem resolveClass_outcome : ∃ r n, resolveClass c name m = some (r, n) ∧ m.Looks n := by
  unfold resolveClass
  rw [get_bind_apply]
  split
  · exact ⟨_, m, rfl, .here⟩
  split
  · exact loadThrough_outcome name m _
  · exact loadThrough_outcome name m _

end Run

/-- In a frame on a machine, an entry of the pool names a field of a class, which is found on a
machine with a slot for it: the slot of the nearest field of the name. -/
structure Frame.NamesField (f : Frame) (m : Machine) (index : UInt32) (a : ClassRef) (name : String)
    (slot : Nat) (n : Machine) : Prop where
  resolve : ∃ owner, (m.cls f.cls).constants.field? index = some ⟨owner, name⟩ ∧
    Run.resolveClass f.cls owner m = some (.ok a, n)
  slot_eq : n.classes.resolveField? a name = some slot

section Operand

open Act (bind_of_ok bind_of_error lift_bind_apply)

variable {f : Frame} {m n : Machine} {index : UInt32} {a : ClassRef} {name : String} {slot : Nat}

theorem Act.fieldConstant_of_constant {ref : FieldRef}
    (h : (m.cls f.cls).constants.field? index = some ref) :
    Act.fieldConstant index f m = (Run.resolveClass f.cls ref.owner >>= fun a => do
      let slot ← Run.resolveField a ref.owner ref.name
      return (slot, f) : Run (Nat × Frame)) m := by
  refine (bind_of_ok (Act.constant_of_some h)).trans ?_
  refine (bind_of_ok (a := f) rfl).trans (lift_bind_apply.trans ?_)
  rfl

theorem Frame.NamesField.fieldConstant_eq (h : f.NamesField m index a name slot n) :
    Act.fieldConstant index f m = some (.ok (slot, f), n) := by
  obtain ⟨owner, hconstant, hclass⟩ := h.resolve
  rw [Act.fieldConstant_of_constant hconstant, Run.bind_of_ok hclass, Run.resolveField,
    Run.bind_apply, Run.get_bind_apply, h.slot_eq]
  rfl

/-- **Slots.** The search for a slot touches no object, and finds one or fails. -/
theorem Act.fieldConstant_outcome (index : UInt32) (f : Frame) (m : Machine) :
    ∃ n, m.Looks n ∧ ((∃ e, Act.fieldConstant index f m = some (.error e, n)) ∨
      ∃ a name slot, f.NamesField m index a name slot n) := by
  cases hconstant : (m.cls f.cls).constants.field? index with
  | none =>
    have hfail : Act.constant .field index Pool.field? f m =
        some (.error (.type (.badConstant .field index.toNat)), m) := by
      refine (bind_of_ok (Act.currentClass_apply f m)).trans ?_
      rw [hconstant]
      rfl
    exact ⟨m, .here, .inl ⟨_, bind_of_error hfail⟩⟩
  | some ref =>
    obtain ⟨r, n, hclass, hlooks⟩ := Run.resolveClass_outcome f.cls ref.owner m
    refine ⟨n, hlooks, ?_⟩
    cases r with
    | error e =>
      refine .inl ⟨e, ?_⟩
      rw [Act.fieldConstant_of_constant hconstant, Run.bind_of_error hclass]
    | ok a =>
      cases hslot : n.classes.resolveField? a ref.name with
      | some slot => exact .inr ⟨a, ref.name, slot, ⟨ref.owner, hconstant, hclass⟩, hslot⟩
      | none =>
        refine .inl ⟨.noSuchField (.named ref.owner ref.name), ?_⟩
        rw [Act.fieldConstant_of_constant hconstant, Run.bind_of_ok hclass, Run.resolveField,
          Run.bind_apply, Run.get_bind_apply, hslot]
        rfl

theorem Frame.NamesField.looks (h : f.NamesField m index a name slot n) : m.Looks n := by
  obtain ⟨owner, -, hclass⟩ := h.resolve
  obtain ⟨r, k, hrun, hlooks⟩ := Run.resolveClass_outcome f.cls owner m
  cases hclass.symm.trans hrun
  exact hlooks

/-- The slot is that of the field in every object of the class, subclasses included, and of no other
field there. -/
theorem Frame.NamesField.owner_of_slot (h : f.NamesField m index a name slot n) (hm : m.Sound)
    {o : ObjectRef} {x : Instance}
    (hx : m.heap.objects[o.index]? = some x) (hsub : n.classes.isSubclass x.cls a = true) :
    (∃ v, m.heap.slot? o slot = some v) ∧
      ∃ k ∈ n.classes.lineage a, (n.cls k).declaredField? name = some slot ∧
        ∀ b ∈ n.classes.lineage x.cls, ∀ p ∈ (n.cls b).fieldSlots, p.2 = slot →
          b = k ∧ p.1 = name := by
  have hn : n.Sound := h.looks.sound hm
  have hfounded : n.classes.Founded := hn.realm.founded
  obtain ⟨owner, -, hclass⟩ := h.resolve
  have hheap : n.heap.objects[o.index]? = some x := by rwa [h.looks.heap_eq]
  obtain ⟨hhas, hsize⟩ := hn.objects o.index x hheap
  obtain ⟨k, hk, hslot⟩ := List.exists_of_findSome?_eq_some h.slot_eq
  have ha : a ∈ n.classes.lineage x.cls := List.contains_iff_mem.1 hsub
  have hkx : k ∈ n.classes.lineage x.cls := hfounded.mem_lineage_trans hhas a ha k hk
  have hmem : (name, slot) ∈ (n.classes.get k).fieldSlots := by
    obtain ⟨l₁, l₂, hslots, -⟩ := List.lookup_eq_some_iff.1 hslot
    rw [hslots]
    exact List.mem_append_right l₁ List.mem_cons_self
  refine ⟨?_, k, hk, hslot, fun b hb p hp hps => ?_⟩
  · obtain ⟨hhask, hcount⟩ := hfounded.slotCount_le hhas k hkx
    have hlt : slot < x.slots.size := by
      rw [hsize]
      exact Nat.lt_of_lt_of_le (hfounded.slot_lt hhask hmem) hcount
    refine ⟨x.slots[slot], ?_⟩
    rw [Heap.slot?, Heap.object, Array.getD_eq_getD_getElem?, hx, Option.getD_some]
    exact Array.getElem?_eq_getElem hlt
  · obtain ⟨rfl, heq⟩ := hfounded.field_unique hhas b hb k hkx p hp (name, slot) hmem hps
    exact ⟨rfl, congrArg Prod.fst heq⟩

end Operand

/-! ### From the slot to the object -/

/-- An access to an instance field, to a slot of an object that holds a value: the object is taken
off the stack, from below what is to be written. -/
inductive FieldAccess.Accesses (slot : Nat) (o : ObjectRef) (v : Value) :
    FieldAccess → Frame → Machine → Frame → Machine → Prop
  | get {c : ClassRef} {p : Nat} {locals stack : List Value} {m : Machine} :
    Accesses slot o v .get ⟨c, p, locals, .object o :: stack⟩ m ⟨c, p, locals, v :: stack⟩ m
  | put {c : ClassRef} {p : Nat} {locals stack : List Value} {m : Machine} (w : Value) :
    Accesses slot o v .put ⟨c, p, locals, w :: .object o :: stack⟩ m ⟨c, p, locals, stack⟩
      { m with heap := m.heap.setSlot o slot w }

section Access

open Act (bind_of_ok bind_of_error lift_of_ok)
open FieldAccess (Accesses)

variable {execute : Execute} {handlers : Handlers} {access : FieldAccess}
variable {f f' : Frame} {m n n' : Machine} {index : UInt32} {a : ClassRef} {name : String}
variable {slot : Nat} {o : ObjectRef} {v : Value}

/-- No slot but the one. -/
theorem FieldAccess.Accesses.slot?_eq (h : Accesses slot o v access f m f' n) {o' : ObjectRef}
    {slot' : Nat} (hne : (o', slot') ≠ (o, slot)) :
    n.heap.slot? o' slot' = m.heap.slot? o' slot' := by
  cases h with
  | get => rfl
  | put w => exact Heap.slot?_setSlot_of_ne w hne

theorem Act.accessField_of_accesses (h : f.NamesField m index a name slot n)
    (hv : n.heap.slot? o slot = some v) (hacc : Accesses slot o v access f n f' n') :
    Act.accessField execute index access f m = some (.ok ((), f'), n') := by
  cases hacc with
  | get =>
    refine (bind_of_ok h.fieldConstant_eq).trans ((Act.pop_object _).trans ?_)
    exact bind_of_ok (lift_of_ok (Run.getSlot_of_some hv))
  | put w =>
    refine (bind_of_ok h.fieldConstant_eq).trans ((bind_of_ok rfl).trans ?_)
    exact (Act.pop_object _).trans (lift_of_ok (Run.setSlot_of_some hv))

theorem Run.getSlot_of_none (h : m.heap.slot? o slot = none) :
    Run.getSlot o slot m =
      some (.error (.noSuchField (.slot (m.cls (m.classOf o)).name slot)), m) := by
  rw [Run.getSlot, Run.get_bind_apply, h]
  rfl

theorem Run.setSlot_of_none (h : m.heap.slot? o slot = none) :
    Run.setSlot o slot v m =
      some (.error (.noSuchField (.slot (m.cls (m.classOf o)).name slot)), m) := by
  rw [Run.setSlot, Run.get_bind_apply, h]
  rfl

/-- Once there is a slot, the instruction accesses it, or it fails on the machine as it is then. -/
theorem Act.accessField_outcome (haccess : access = .get ∨ access = .put) (execute : Execute)
    (h : f.NamesField m index a name slot n) :
    (∃ o v f' n', n.heap.slot? o slot = some v ∧ Accesses slot o v access f n f' n') ∨
      ∃ e, Act.accessField execute index access f m = some (.error e, n) := by
  obtain ⟨c, p, locals, stack⟩ := f
  rcases haccess with rfl | rfl
  · rcases stack with _ | ⟨u, stack⟩
    · exact .inr ⟨_, (bind_of_ok h.fieldConstant_eq).trans rfl⟩
    cases u with
    | object o =>
      cases hv : n.heap.slot? o slot with
      | some v => exact .inl ⟨o, v, _, _, hv, .get⟩
      | none =>
        have hread : (liftM (Run.getSlot o slot) >>= Act.push) ⟨c, p, locals, stack⟩ n =
            some (.error (.noSuchField (.slot (n.cls (n.classOf o)).name slot)), n) :=
          bind_of_error (Run.bind_of_error (Run.getSlot_of_none hv))
        exact .inr ⟨_, (bind_of_ok h.fieldConstant_eq).trans ((Act.pop_object _).trans hread)⟩
    | null | bool | int | long | double | text | array | cls =>
      exact .inr ⟨_, (bind_of_ok h.fieldConstant_eq).trans rfl⟩
  · rcases stack with _ | ⟨w, _ | ⟨u, stack⟩⟩
    · exact .inr ⟨_, (bind_of_ok h.fieldConstant_eq).trans rfl⟩
    · exact .inr ⟨_, (bind_of_ok h.fieldConstant_eq).trans rfl⟩
    cases u with
    | object o =>
      cases hv : n.heap.slot? o slot with
      | some v => exact .inl ⟨o, v, _, _, hv, .put w⟩
      | none =>
        have hwrite : (liftM (Run.setSlot o slot w) : Act Unit) ⟨c, p, locals, stack⟩ n =
            some (.error (.noSuchField (.slot (n.cls (n.classOf o)).name slot)), n) :=
          Run.bind_of_error (Run.setSlot_of_none hv)
        exact .inr ⟨_, (bind_of_ok h.fieldConstant_eq).trans
          ((bind_of_ok rfl).trans ((Act.pop_object _).trans hwrite))⟩
    | null | bool | int | long | double | text | array | cls =>
      exact .inr ⟨_, (bind_of_ok h.fieldConstant_eq).trans rfl⟩

/-- An instruction that accesses a field answers nothing. -/
theorem Act.step_field_of_ok (h : Act.accessField execute index access f m = some (.ok ((), f'), n)) :
    Act.step execute handlers (.field access index) f m = some (.ok (none, f'), n) :=
  bind_of_ok h

theorem Act.step_field_of_error {e : VmError}
    (h : Act.accessField execute index access f m = some (.error e, n)) :
    Act.step execute handlers (.field access index) f m = some (.error e, n) :=
  bind_of_error h

/-- **Instance fields.** Whatever the object on the stack is, to read or to write an instance field
comes to an outcome. It succeeds exactly if the operand names a field of a class, with a slot there,
and the object has a slot of that number; then it goes to that slot and to no other, of that object
and of no other. Else it fails, and leaves all objects as they are. If the object is one of the class
that is named, or of a subclass, then it has such a slot, and the slot belongs to the nearest field of
the name from that class upward, and to no other. -/
theorem step_field_goes_by_slot (haccess : access = .get ∨ access = .put) (hm : m.Sound)
    (execute : Execute) (handlers : Handlers) (f : Frame) (index : UInt32) :
    (∃ result n', Act.step execute handlers (.field access index) f m = some (result, n') ∧
      ∀ e, result = .error e → n'.heap = m.heap) ∧
    (∀ r f' n', Act.step execute handlers (.field access index) f m = some (.ok (r, f'), n') ↔
      r = none ∧ ∃ a name slot n o v, f.NamesField m index a name slot n ∧
        m.heap.slot? o slot = some v ∧ Accesses slot o v access f n f' n') ∧
    ∀ a name slot n, f.NamesField m index a name slot n →
      (∀ o v f' n', Accesses slot o v access f n f' n' → ∀ o' slot', (o', slot') ≠ (o, slot) →
        n'.heap.slot? o' slot' = m.heap.slot? o' slot') ∧
      ∀ o x, m.heap.objects[o.index]? = some x → n.classes.isSubclass x.cls a = true →
        (∃ v, m.heap.slot? o slot = some v) ∧
          ∃ k ∈ n.classes.lineage a, (n.cls k).declaredField? name = some slot ∧
            ∀ b ∈ n.classes.lineage x.cls, ∀ p ∈ (n.cls b).fieldSlots, p.2 = slot →
              b = k ∧ p.1 = name := by
  have hdone : ∀ {a name slot n o v f' n'}, f.NamesField m index a name slot n →
      m.heap.slot? o slot = some v → Accesses slot o v access f n f' n' →
      Act.step execute handlers (.field access index) f m = some (.ok (none, f'), n') := by
    intro a name slot n o v f' n' h hv hacc
    rw [← h.looks.heap_eq] at hv
    exact Act.step_field_of_ok (Act.accessField_of_accesses h hv hacc)
  have houtcome : (∃ a name slot n o v f' n', f.NamesField m index a name slot n ∧
      m.heap.slot? o slot = some v ∧ Accesses slot o v access f n f' n') ∨
      ∃ e n, n.heap = m.heap ∧
        Act.step execute handlers (.field access index) f m = some (.error e, n) := by
    obtain ⟨n, hlooks, ⟨e, hfail⟩ | ⟨a, name, slot, h⟩⟩ := Act.fieldConstant_outcome index f m
    · refine .inr ⟨e, n, hlooks.heap_eq, Act.step_field_of_error ?_⟩
      rcases haccess with rfl | rfl <;> exact bind_of_error hfail
    rcases Act.accessField_outcome haccess execute h with ⟨o, v, f', n', hv, hacc⟩ | ⟨e, he⟩
    · rw [hlooks.heap_eq] at hv
      exact .inl ⟨a, name, slot, n, o, v, f', n', h, hv, hacc⟩
    · exact .inr ⟨e, n, hlooks.heap_eq, Act.step_field_of_error he⟩
  refine ⟨?_, fun r f' n' => ⟨fun h => ?_, ?_⟩, fun a name slot n h => ⟨?_, ?_⟩⟩
  · rcases houtcome with ⟨a, name, slot, n, o, v, f', n', h, hv, hacc⟩ | ⟨e, n, hheap, he⟩
    · exact ⟨_, _, hdone h hv hacc, fun e he => by cases he⟩
    · exact ⟨_, n, he, fun _ _ => hheap⟩
  · rcases houtcome with ⟨a, name, slot, n, o, v, f₁, n₁, h', hv, hacc⟩ | ⟨e, n, -, he⟩
    · cases h.symm.trans (hdone h' hv hacc)
      exact ⟨rfl, a, name, slot, n, o, v, h', hv, hacc⟩
    · cases h.symm.trans he
  · rintro ⟨rfl, a, name, slot, n, o, v, h, hv, hacc⟩
    exact hdone h hv hacc
  · intro o v f' n' hacc o' slot' hne
    rw [hacc.slot?_eq hne, h.looks.heap_eq]
  · intro o x hx hsub
    exact h.owner_of_slot hm hx hsub

end Access

/-! ### An object of another class -/

/-- A class file that has a field and names it. -/
def leftFile : ClassFile where
  name := "t.Left"
  constants := { fields := [⟨"t.Left", "l"⟩] }
  fields := [⟨"l", "I", 0⟩]

/-- The class of that file. -/
def leftClass : LoadedClass where
  name := "t.Left"
  loader := ⟨0⟩
  orphan := false
  ancestors := []
  constants := { fields := [⟨"t.Left", "l"⟩] }
  annotations := []
  methods := []
  fieldSlots := [("l", 0)]
  fieldDefaults := #[.int 0]
  staticSlots := []
  statics := #[]
  state := .uninitialized
  instrumented := false
  handler? := none

/-- A class file that has another field, and a constructor that does nothing. -/
def rightFile : ClassFile where
  name := "t.Right"
  fields := [⟨"r", "I", 0⟩]
  methods := [⟨"<init>", "()V", 0, [], 1, [0xA4]⟩]

/-- The class of that file. -/
def rightClass : LoadedClass :=
  { leftClass with
    name := "t.Right"
    constants := {}
    methods := [⟨"<init>", "()V", ⟨[], .void⟩, 0, 1, #[.simple .retVoid]⟩]
    fieldSlots := [("r", 0)] }

/-- A machine that has loaded both. -/
def leftRight : Machine where
  realm := {
    classes := ⟨#[leftClass, rightClass]⟩
    loaders := #[{ kind := .bootstrap, classes := [("t.Left", ⟨0⟩), ("t.Right", ⟨1⟩)] }]
    resources := {} }
  entry := ⟨0⟩

theorem leftRight_sound : leftRight.Sound := by
  have hleft : LoadedClass.define { loader := ⟨0⟩ } none leftFile = .ok leftClass := by decide +kernel
  have hright : LoadedClass.define { loader := ⟨0⟩ } none rightFile = .ok rightClass := by
    decide +kernel
  have hverify : leftFile.verify = .ok () := by decide +kernel
  have hverify' : rightFile.verify = .ok () := by decide +kernel
  have hnone : ∀ t : ClassTable, ∀ s, (none : Option ClassRef) = some s → t.Has s := nofun
  have hfounded : (⟨#[leftClass]⟩ : ClassTable).Founded :=
    ClassTable.founded_empty.add (hnone _) hverify hleft
  have hfounded' : (⟨#[leftClass, rightClass]⟩ : ClassTable).Founded :=
    hfounded.add (hnone _) hverify' hright
  exact ⟨Realm.sound_of_single rfl hfounded' (by decide), nofun⟩

/-- A frame of the one class. -/
def leftFrame (stack : List Value) : Frame := { cls := ⟨0⟩, locals := [], stack := stack }

/-- An object of the other class is created. -/
theorem run_newInstance_right :
    ∃ m, (Request.newInstance "t.Right" "()V" []).run (executeWith (fun _ => default) 5) leftRight =
      some (.ok (.object ⟨0⟩), m) ∧ m.heap.slot? ⟨0⟩ 0 = some (.int 0) ∧ m.classOf ⟨0⟩ = ⟨1⟩ ∧
      m.classes.isSubclass ⟨1⟩ ⟨0⟩ = false ∧ m.classes.Has ⟨0⟩ ∧
      ∀ stack, (leftFrame stack).NamesField m 0 ⟨0⟩ "l" 0 m :=
  ⟨_, rfl, rfl, rfl, rfl, Nat.zero_lt_two, fun _ => ⟨⟨"t.Left", rfl, rfl⟩, rfl⟩⟩

/-- The field of the one class is written to that object, and no other slot is. -/
theorem step_putField_right :
    ∃ m, m.Sound ∧ m.classOf ⟨0⟩ = ⟨1⟩ ∧ ∀ execute handlers,
      Act.step execute handlers (.field .put 0) (leftFrame [.int 5, .object ⟨0⟩]) m =
        some (.ok (none, leftFrame []), { m with heap := m.heap.setSlot ⟨0⟩ 0 (.int 5) }) := by
  obtain ⟨m, hrun, hslot, hclass, -, -, hnames⟩ := run_newInstance_right
  have hm : m.Sound := leftRight_sound.request hrun |>.1
  refine ⟨m, hm, hclass, fun execute handlers => ?_⟩
  have h := (step_field_goes_by_slot (.inr rfl) hm execute handlers
    (leftFrame [.int 5, .object ⟨0⟩]) 0).2.1
  exact (h _ _ _).2 ⟨rfl, ⟨0⟩, "l", 0, m, ⟨0⟩, .int 0, hnames _, hslot, .put (.int 5)⟩

/-- **Objects of other classes.** Access to a field of a class need not fail for an object of another
one. -/
theorem exists_stray_access :
    ¬ ∀ (handlers : Handlers) (execute : Execute) (access : FieldAccess) (start m n : Machine)
      (f : Frame) (index : UInt32) (a : ClassRef) (name : String) (slot : Nat) (o : ObjectRef),
      start.Sound → start.Reaches handlers m → m.classes.Has f.cls →
      f.NamesField m index a name slot n →
      ((∃ rest, access = .get ∧ f.stack = .object o :: rest) ∨
        ∃ w rest, access = .put ∧ f.stack = w :: .object o :: rest) →
      n.classes.isSubclass (n.classOf o) a = false →
      ∃ e n', Act.step execute handlers (.field access index) f m = some (.error e, n') ∧
        n'.heap = m.heap := by
  intro hall
  obtain ⟨m, hrun, hslot, hclass, hother, hhas, hnames⟩ := run_newInstance_right
  have hreaches : leftRight.Reaches (fun _ => default) m := .request (.refl _) hrun
  have hfield := hnames [.int 5, .object ⟨0⟩]
  obtain ⟨e, n', hfail, -⟩ := hall (fun _ => default) (fun _ _ _ => Run.outOfFuel) .put leftRight m m
    (leftFrame [.int 5, .object ⟨0⟩]) 0 ⟨0⟩ "l" 0 ⟨0⟩ leftRight_sound hreaches hhas hfield
    (.inr ⟨.int 5, [], rfl, rfl⟩) (by rw [hclass]; exact hother)
  cases hfail.symm.trans
    (Act.step_field_of_ok (Act.accessField_of_accesses hfield hslot (.put (.int 5))))

end Interpose
