import Interpose.Value.Basic
/-!
# The heap

Objects and arrays, each in a table of its own that only grows; a reference is a position. Nothing
is ever collected, so a reference that was valid once stays valid. A reference that was never handed
out denotes an empty object or array: the accessors are total, and that a machine does not make such
references is a theorem about machines.
-/

namespace Interpose

/-- An object: its class and one slot for every instance field, inherited ones first. -/
structure Instance where
  cls : ClassRef
  slots : Array Value
  deriving DecidableEq, Repr, Inhabited

/-- All objects and arrays. -/
structure Heap where
  objects : Array Instance := #[]
  arrays : Array (Array Value) := #[]
  deriving DecidableEq, Repr, Inhabited

namespace Heap

variable (h : Heap)

/-- The object behind a reference. -/
def object (o : ObjectRef) : Instance := h.objects.getD o.index default

/-- The elements of an array. -/
def elements (a : ArrayRef) : Array Value := h.arrays.getD a.index #[]

/-- Adds an object. -/
def allocate (i : Instance) : ObjectRef × Heap :=
  (⟨h.objects.size⟩, { h with objects := h.objects.push i })

/-- Adds an array. -/
def allocateArray (items : Array Value) : ArrayRef × Heap :=
  (⟨h.arrays.size⟩, { h with arrays := h.arrays.push items })

/-- The content of a slot. -/
def slot? (o : ObjectRef) (i : Nat) : Option Value := (h.object o).slots[i]?

/-- Writes a slot; where there is none, nothing changes. -/
def setSlot (o : ObjectRef) (i : Nat) (v : Value) : Heap :=
  { h with
    objects := h.objects.modify o.index fun x => { x with slots := x.slots.setIfInBounds i v } }

/-- The position that an index denotes in an array, if any. -/
def position? (a : ArrayRef) (i : Int32) : Option Nat :=
  if 0 ≤ i.toInt ∧ i.toInt.toNat < (h.elements a).size then some i.toInt.toNat else none

/-- An element. -/
def element? (a : ArrayRef) (i : Int32) : Option Value :=
  (h.position? a i).bind fun p => (h.elements a)[p]?

/-- Writes the element at a position; where there is none, nothing changes. -/
def setElement (a : ArrayRef) (p : Nat) (v : Value) : Heap :=
  { h with arrays := h.arrays.modify a.index fun x => x.setIfInBounds p v }

end Heap

end Interpose
