import Interpose.ClassFile.Basic
import Interpose.Value.Basic
/-!
# Loaded classes

A class as the machine works with it: bodies decoded, signatures parsed, instance fields laid out in
slots, static fields given storage. A class knows its superclasses by a list, nearest first, so
walking up the hierarchy is walking along a list.

Where a class file declares one member twice, the later declaration is the one found by name. Class
files that pass verification may do so, and `ClassFile.method?` finds the earlier one.
-/

namespace Interpose

/-- The position of the last element that passes a test. -/
def lastIndex? {α : Type} (p : α → Bool) : List α → Option Nat
  | [] => none
  | a :: rest =>
    match lastIndex? p rest with
    | some i => some (i + 1)
    | none => if p a then some 0 else none

/-- How far the static initializer of a class has come. -/
inductive InitState
  | uninitialized
  | initializing
  | initialized
  deriving DecidableEq, Repr, Inhabited

/-- The name of a state. -/
def InitState.name : InitState → String
  | uninitialized => "Uninitialized"
  | initializing => "Initializing"
  | initialized => "Initialized"

/-- A method ready for execution. -/
structure LoadedMethod where
  name : String
  descriptor : String
  signature : MethodDesc
  access : Access
  maxLocals : UInt16
  code : Array Instruction
  deriving DecidableEq, Repr, Inhabited

namespace LoadedMethod

def isStatic (m : LoadedMethod) : Bool := Access.has m.access .static

def isNative (m : LoadedMethod) : Bool := Access.has m.access .native

def isAbstract (m : LoadedMethod) : Bool := Access.has m.access .abstract

/-- The values a call hands over: the receiver of an instance method, and the arguments. -/
def argumentCount (m : LoadedMethod) : Nat := m.signature.arity + (!m.isStatic).toNat

end LoadedMethod

/-- A loaded class. `fieldSlots` and `staticSlots` list the latest declaration first. -/
structure LoadedClass where
  name : String
  /-- The loader that defined the class. -/
  loader : LoaderRef
  /-- Whether the class has lost its loader from the beginning. -/
  orphan : Bool
  /-- The superclasses, nearest first. -/
  ancestors : List ClassRef
  constants : Pool
  annotations : List String
  methods : List LoadedMethod
  fieldSlots : List (String × Nat)
  /-- What the slots of a new instance hold, inherited slots first. -/
  fieldDefaults : Array Value
  staticSlots : List (String × Nat)
  statics : Array Value
  state : InitState
  instrumented : Bool
  /-- The dispatch handler, which only instrumented classes have. -/
  handler? : Option HandlerRef
  deriving DecidableEq, Repr, Inhabited

namespace LoadedClass

variable (c : LoadedClass)

def superclass? : Option ClassRef := c.ancestors.head?

def isAnnotated (mark : String) : Bool := c.annotations.contains mark

/-- The position of the last method with a name and descriptor. -/
def declaredMethod? (name descriptor : String) : Option Nat :=
  lastIndex? (fun m => m.name == name && m.descriptor == descriptor) c.methods

/-- The slot of a declared instance field. -/
def declaredField? (name : String) : Option Nat := c.fieldSlots.lookup name

/-- The slot of a declared static field. -/
def declaredStatic? (name : String) : Option Nat := c.staticSlots.lookup name

/-- A new instance holds the defaults. -/
def slotCount : Nat := c.fieldDefaults.size

end LoadedClass

end Interpose
