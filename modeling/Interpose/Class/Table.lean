import Interpose.Class.Define
import Interpose.Heap
/-!
# The class table

All loaded classes, in the order of their definition. A class names its superclasses by their
positions. Looking up a member walks the *lineage* of a class, from the class itself to the root of
its hierarchy, and stops at the first class that declares it.

Instance slots are numbered for the whole hierarchy, so a slot is a number. Static slots belong to
the class that declares them, so a static field is a class and a number.
-/

namespace Interpose

/-- The loaded classes. -/
structure ClassTable where
  classes : Array LoadedClass := #[]
  deriving DecidableEq, Repr, Inhabited

namespace ClassTable

variable (t : ClassTable)

/-- The class behind a reference. -/
def get (c : ClassRef) : LoadedClass := t.classes.getD c.index default

/-- Adds a class. -/
def add (c : LoadedClass) : ClassRef × ClassTable :=
  (⟨t.classes.size⟩, ⟨t.classes.push c⟩)

/-- Changes a class. -/
def modify (c : ClassRef) (f : LoadedClass → LoadedClass) : ClassTable :=
  ⟨t.classes.modify c.index f⟩

/-- The class and its superclasses, nearest first. -/
def lineage (c : ClassRef) : List ClassRef := c :: (t.get c).ancestors

/-- Whether `a` is `b` or a subclass of it. -/
def isSubclass (a b : ClassRef) : Bool := (t.lineage a).contains b

/-- The nearest method of a name and descriptor: who declares it, and where. -/
def resolveMethod? (c : ClassRef) (name descriptor : String) : Option (ClassRef × Nat) :=
  (t.lineage c).findSome? fun k => ((t.get k).declaredMethod? name descriptor).map (k, ·)

/-- The slot of the nearest instance field of a name. -/
def resolveField? (c : ClassRef) (name : String) : Option Nat :=
  (t.lineage c).findSome? fun k => (t.get k).declaredField? name

/-- The nearest static field of a name: who declares it, and where. -/
def resolveStatic? (c : ClassRef) (name : String) : Option (ClassRef × Nat) :=
  (t.lineage c).findSome? fun k => ((t.get k).declaredStatic? name).map (k, ·)

/-- The content of a static slot. -/
def static? (c : ClassRef) (slot : Nat) : Option Value := (t.get c).statics[slot]?

/-- Writes a static slot; where there is none, nothing changes. -/
def setStatic (c : ClassRef) (slot : Nat) (v : Value) : ClassTable :=
  t.modify c fun k => { k with statics := k.statics.setIfInBounds slot v }

/-- Records how far the initialization of a class has come. -/
def setState (c : ClassRef) (state : InitState) : ClassTable :=
  t.modify c fun k => { k with state := state }

/-- A new instance of a class: every slot at its default. -/
def newInstance (c : ClassRef) : Instance := ⟨c, (t.get c).fieldDefaults⟩

end ClassTable

end Interpose
