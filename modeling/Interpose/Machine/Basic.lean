import Interpose.Dispatch.Record
import Interpose.Loading.Loader
import Interpose.Machine.Error
/-!
# The machine

The state that execution changes, and the computations that change it. A computation may fail, and
what it did before it failed stays done. It may also run out of *fuel*, which is no outcome of the
program but the admission that nothing has been found out; there is no state to go on with then, and
nothing recovers from it.

The call depth is part of the state. It goes up when a method is entered and comes down when the
method is left, in whatever way.
-/

namespace Interpose

/-- How deep calls may be nested unless another limit is set. -/
def defaultMaxDepth : Nat := 512

/-- The state of execution. -/
structure Machine where
  realm : Realm
  heap : Heap := {}
  /-- What handlers and substitutes have noted, the latest last. -/
  journal : Array Event := #[]
  /-- The number of methods entered and not left. -/
  depth : Nat := 0
  maxDepth : Nat := defaultMaxDepth
  /-- The loader of classes that are named from outside. -/
  entry : LoaderRef
  deriving Inhabited

namespace Machine

variable (m : Machine)

/-- The loaded classes. -/
def classes : ClassTable := m.realm.classes

/-- The class behind a reference. -/
def cls (c : ClassRef) : LoadedClass := m.classes.get c

/-- Changes the class table. -/
def updateClasses (f : ClassTable → ClassTable) : Machine :=
  { m with realm := { m.realm with classes := f m.realm.classes } }

/-- The class of an object. -/
def classOf (o : ObjectRef) : ClassRef := (m.heap.object o).cls

end Machine

/-- A computation of the machine; nothing at all if the fuel runs out. -/
abbrev Run := ExceptT VmError (StateT Machine Option)

namespace Run

variable {α : Type}

/-- Gives up. -/
def outOfFuel : Run α := fun _ => none

/-- Fails. -/
def fail (e : VmError) : Run α := throw e

/-- Runs a computation and hands over how it went. -/
def attempt (x : Run α) : Run (Except VmError α) := fun m =>
  match x m with
  | none => none
  | some (result, m) => some (.ok result, m)

/-- Goes on as a computation went that has been run already. -/
def resume : Except VmError α → Run α
  | .ok a => pure a
  | .error e => fail e

/-- Runs a computation one call deeper. -/
def deeper (x : Run α) : Run α := fun m =>
  match x { m with depth := m.depth + 1 } with
  | none => none
  | some (result, m) => some (result, { m with depth := m.depth - 1 })

/-! ### Values -/

/-- Takes what a value was expected to be. -/
def expect (expected : String) (found : Value) : Option α → Run α
  | some a => pure a
  | none => do
    let m ← get
    fail (.type (.mismatch expected (found.typeName m.classes m.heap)))

def asBool (v : Value) : Run Bool := expect "boolean" v v.bool?

def asInt (v : Value) : Run Int32 := expect "int" v v.int?

def asLong (v : Value) : Run Int64 := expect "long" v v.long?

def asDouble (v : Value) : Run Binary64 := expect "double" v v.double?

def asText (v : Value) : Run String := expect "string" v v.text?

def asObject : Value → Run ObjectRef
  | .object o => pure o
  | .null => fail .nullPointer
  | v => expect "object" v none

def asArray : Value → Run ArrayRef
  | .array a => pure a
  | .null => fail .nullPointer
  | v => expect "array" v none

def asClass : Value → Run ClassRef
  | .cls c => pure c
  | .null => fail .nullPointer
  | v => expect "class" v none

/-- The conversion of a value to a primitive type. -/
def unbox (t : TypeDesc) (v : Value) : Run Value := expect t.name v (v.unbox? t)

/-- The text of a value. -/
def display (v : Value) : Run String := do
  let m ← get
  return v.display m.classes m.heap

/-! ### The heap -/

/-- Adds an object of a class. -/
def allocate (c : ClassRef) : Run Value := do
  let m ← get
  let (o, heap) := m.heap.allocate (m.classes.newInstance c)
  set { m with heap := heap }
  return .object o

/-- Adds an array. -/
def allocateArray (items : Array Value) : Run Value := do
  let m ← get
  let (a, heap) := m.heap.allocateArray items
  set { m with heap := heap }
  return .array a

/-- Reads a slot of an object. -/
def getSlot (o : ObjectRef) (slot : Nat) : Run Value := do
  let m ← get
  match m.heap.slot? o slot with
  | some v => return v
  | none => fail (.noSuchField (.slot (m.cls (m.classOf o)).name slot))

/-- Writes a slot of an object. -/
def setSlot (o : ObjectRef) (slot : Nat) (v : Value) : Run Unit := do
  let m ← get
  match m.heap.slot? o slot with
  | some _ => set { m with heap := m.heap.setSlot o slot v }
  | none => fail (.noSuchField (.slot (m.cls (m.classOf o)).name slot))

/-- Fails for an index that an array does not have. -/
def outOfBounds (a : ArrayRef) (i : Int32) : Run α := do
  let m ← get
  fail (.thrown (.text s!"IndexOutOfBounds: index {i.toInt} for length {(m.heap.elements a).size}"))

/-- Reads an element of an array. -/
def getElement (a : ArrayRef) (i : Int32) : Run Value := do
  let m ← get
  match m.heap.element? a i with
  | some v => return v
  | none => outOfBounds a i

/-- Writes an element of an array. -/
def setElement (a : ArrayRef) (i : Int32) (v : Value) : Run Unit := do
  let m ← get
  match m.heap.position? a i with
  | some p => set { m with heap := m.heap.setElement a p v }
  | none => outOfBounds a i

/-! ### Classes -/

/-- Loads a class through a loader. -/
def loadThrough (l : LoaderRef) (name : String) : Run ClassRef := fun m =>
  match Load.load l name m.realm with
  | (.ok c, realm) => some (.ok c, { m with realm := realm })
  | (.error e, realm) => some (.error (.classLoad e), { m with realm := realm })

/-- Loads a class that is named from outside. -/
def loadClass (name : String) : Run ClassRef := do
  loadThrough (← get).entry name

/-- The class that a name means inside another class. Its own name means the class itself; others go
to its loader, or to the machine's if that one is gone. -/
def resolveClass (current : ClassRef) (name : String) : Run ClassRef := do
  let m ← get
  let k := m.cls current
  if k.name = name then return current
  else if m.realm.hasLiveLoader current then loadThrough k.loader name
  else loadThrough m.entry name

/-- Notes an event. -/
def note (e : Event) : Run Unit := modify fun m => { m with journal := m.journal.push e }

end Run

end Interpose
