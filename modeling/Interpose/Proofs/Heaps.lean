import Interpose.Heap
/-!
# Reads and writes of the heap

Objects stay, and stay of their class and as large as they are. A slot that was written holds what
was written to it, and any other slot holds what it held.

## Main definitions

* `Heap.Keeps`

## Main results

* `Heap.slot?_setSlot`, `Heap.slot?_setSlot_of_ne`: reading after a write
* `Heap.setSlot_setSlot`: writing back
-/

namespace Interpose

namespace Heap

/-! ### What heaps keep -/

section Keeps

variable {h h' h'' : Heap}

/-- The second heap has the objects of the first, of the same classes and with as many slots. -/
def Keeps (h h' : Heap) : Prop :=
  ∀ (o : Nat) x, h.objects[o]? = some x →
    ∃ y, h'.objects[o]? = some y ∧ y.cls = x.cls ∧ y.slots.size = x.slots.size

theorem Keeps.refl (h : Heap) : h.Keeps h := fun _ x hx => ⟨x, hx, rfl, rfl⟩

theorem Keeps.trans (hk : h.Keeps h') (hk' : h'.Keeps h'') : h.Keeps h'' := by
  intro o x hx
  obtain ⟨y, hy, hcls, hsize⟩ := hk o x hx
  obtain ⟨z, hz, hcls', hsize'⟩ := hk' o y hy
  exact ⟨z, hz, hcls'.trans hcls, hsize'.trans hsize⟩

theorem object_allocate (h : Heap) (i : Instance) :
    (h.allocate i).2.object (h.allocate i).1 = i := by
  show (h.objects.push i).getD h.objects.size default = i
  rw [Array.getD_eq_getD_getElem?, Array.getElem?_push_size]
  rfl

theorem keeps_allocate (h : Heap) (i : Instance) : h.Keeps (h.allocate i).2 := by
  intro o x hx
  have hlt : o < h.objects.size := (Array.getElem?_eq_some_iff.1 hx).1
  exact ⟨x, Array.getElem?_push_lt hlt ▸ Array.getElem?_eq_getElem hlt ▸ hx, rfl, rfl⟩

theorem getElem?_setSlot (h : Heap) (o : ObjectRef) (i : Nat) (v : Value) (a : Nat) :
    (h.setSlot o i v).objects[a]? = (h.objects[a]?).map fun x =>
      if o.index = a then { x with slots := x.slots.setIfInBounds i v } else x := by
  show (h.objects.modify o.index _)[a]? = _
  rw [Array.getElem?_modify]
  by_cases ho : o.index = a
  · simp only [if_pos ho]
  · simp only [if_neg ho, Option.map_id']

theorem keeps_setSlot (h : Heap) (o : ObjectRef) (i : Nat) (v : Value) :
    h.Keeps (h.setSlot o i v) := by
  intro a x hx
  rw [getElem?_setSlot, hx]
  refine ⟨_, rfl, ?_, ?_⟩ <;> dsimp only <;> split
  · rfl
  · rfl
  · exact Array.size_setIfInBounds
  · rfl

end Keeps

/-! ### Slots -/

variable {h : Heap} {o : ObjectRef} {i : Nat} {v w : Value}

theorem exists_of_slot? (hw : h.slot? o i = some w) :
    ∃ x, h.objects[o.index]? = some x ∧ x.slots[i]? = some w := by
  unfold slot? object at hw
  rw [Array.getD_eq_getD_getElem?] at hw
  cases hx : h.objects[o.index]? with
  | some x =>
    rw [hx] at hw
    exact ⟨x, rfl, hw⟩
  | none =>
    rw [hx] at hw
    exact nomatch hw

theorem slot?_setSlot (hw : h.slot? o i = some w) : (h.setSlot o i v).slot? o i = some v := by
  obtain ⟨x, hx, hi⟩ := exists_of_slot? hw
  obtain ⟨hlt, -⟩ := Array.getElem?_eq_some_iff.1 hi
  rw [slot?, object, Array.getD_eq_getD_getElem?, getElem?_setSlot, hx, Option.map_some,
    Option.getD_some, if_pos rfl]
  exact Array.getElem?_setIfInBounds_self_of_lt hlt

/-- A write leaves an object as large as it was. -/
theorem size_slots_setSlot (o' : ObjectRef) :
    ((h.setSlot o i v).object o').slots.size = (h.object o').slots.size := by
  rw [object, object, Array.getD_eq_getD_getElem?, Array.getD_eq_getD_getElem?, getElem?_setSlot]
  cases h.objects[o'.index]? with
  | none => rfl
  | some x =>
    simp only [Option.map_some, Option.getD_some]
    split <;> simp

/-- To write a slot and then what it held before is to do nothing. -/
theorem setSlot_setSlot (hw : h.slot? o i = some w) : (h.setSlot o i v).setSlot o i w = h := by
  obtain ⟨x, hx, hi⟩ := exists_of_slot? hw
  have hslots : x.slots.setIfInBounds i w = x.slots := by
    obtain ⟨hlt, rfl⟩ := Array.getElem?_eq_some_iff.1 hi
    rw [Array.setIfInBounds_def, dif_pos hlt, Array.set_getElem_self]
  have hobjects : ((h.setSlot o i v).setSlot o i w).objects = h.objects := by
    refine Array.ext_getElem? fun a => ?_
    rw [getElem?_setSlot, getElem?_setSlot, Option.map_map]
    by_cases ha : o.index = a
    · subst ha
      rw [hx, Option.map_some, Function.comp_apply, if_pos rfl, if_pos rfl,
        Array.setIfInBounds_setIfInBounds, hslots]
    · simp only [Function.comp_def, if_neg ha, Option.map_id']
  show Heap.mk ((h.setSlot o i v).setSlot o i w).objects h.arrays = h
  rw [hobjects]

/-- **Another slot.** -/
theorem slot?_setSlot_of_ne {o' : ObjectRef} {j : Nat} (v : Value)
    (hne : (o', j) ≠ (o, i)) : (h.setSlot o i v).slot? o' j = h.slot? o' j := by
  rw [slot?, slot?, object, object, Array.getD_eq_getD_getElem?, Array.getD_eq_getD_getElem?,
    getElem?_setSlot]
  cases hx : h.objects[o'.index]? with
  | none => rfl
  | some x =>
    rw [Option.map_some, Option.getD_some, Option.getD_some]
    split
    · next hindex =>
      have ho : o' = o := by
        cases o
        cases o'
        exact congrArg _ hindex.symm
      have hij : i ≠ j := fun hij => hne (by rw [ho, hij])
      exact Array.getElem?_setIfInBounds_ne hij
    · rfl

end Heap

end Interpose
