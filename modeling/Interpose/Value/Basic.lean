import Interpose.Descriptor.Basic
import Interpose.Value.Binary64
/-!
# Values

What locals, operand stacks, fields and arrays hold. Numbers and texts are values of their own;
objects, arrays and classes are named by references into the heap and the class table, so equality
of references is identity.

There are three ways to tell values apart, and they differ. `DecidableEq` is sameness. `Value.equal`
is what the equality instructions compute: an int equals the long of the same number, and doubles
compare as numbers. `isTruthy` is neither; it asks for something other than null, false and zero.
-/

namespace Interpose

/-- An object on the heap. -/
structure ObjectRef where
  index : Nat
  deriving DecidableEq, Repr, Inhabited

/-- An array on the heap. -/
structure ArrayRef where
  index : Nat
  deriving DecidableEq, Repr, Inhabited

/-- A loaded class. -/
structure ClassRef where
  index : Nat
  deriving DecidableEq, Repr, Inhabited

/-- A class loader. -/
structure LoaderRef where
  index : Nat
  deriving DecidableEq, Repr, Inhabited

/-- A dispatch handler. -/
structure HandlerRef where
  index : Nat
  deriving DecidableEq, Repr, Inhabited

/-- A value. -/
inductive Value
  | null
  | bool (b : Bool)
  | int (n : Int32)
  | long (n : Int64)
  | double (x : Binary64)
  | text (s : String)
  | object (ref : ObjectRef)
  | array (ref : ArrayRef)
  | cls (ref : ClassRef)
  deriving DecidableEq, Repr, Inhabited

namespace Value

def isNull : Value → Bool
  | null => true
  | _ => false

/-- Everything but null, false and the zeros. -/
def isTruthy : Value → Bool
  | null => false
  | bool b => b
  | int n => n != 0
  | long n => n != 0
  | double x => !x.isZero
  | text _ | object _ | array _ | cls _ => true

/-- Equality as the instructions compute it: ints widen to longs, doubles compare as numbers, and
references by identity. -/
def equal : Value → Value → Bool
  | int a, long b => a.toInt64 == b
  | long a, int b => a == b.toInt64
  | double a, double b => a.equal b
  | a, b => a == b

/-! ### Payloads -/

def bool? : Value → Option Bool
  | bool b => some b
  | _ => none

def int? : Value → Option Int32
  | int n => some n
  | _ => none

/-- The number of an int or a long. -/
def long? : Value → Option Int64
  | int n => some n.toInt64
  | long n => some n
  | _ => none

/-- The number of an int, a long or a double, rounded to a double. -/
def double? : Value → Option Binary64
  | int n => some (.ofLong n.toInt64)
  | long n => some (.ofLong n)
  | double x => some x
  | _ => none

def text? : Value → Option String
  | text s => some s
  | _ => none

/-! ### Conversion to declared types -/

/-- What a field or a missing result of a type holds. -/
def zeroFor : TypeDesc → Value
  | .bool => bool false
  | .int => int 0
  | .long => long 0
  | .double => double 0
  | _ => null

/-- The conversion to a primitive type: null becomes zero and integers widen. Values of types that
are not primitive have no conversion, null apart. -/
def unbox? : TypeDesc → Value → Option Value
  | t, null => some (zeroFor t)
  | .bool, bool b => some (bool b)
  | .int, int n => some (int n)
  | .long, int n => some (long n.toInt64)
  | .long, long n => some (long n)
  | .double, int n => some (double (.ofLong n.toInt64))
  | .double, long n => some (double (.ofLong n))
  | .double, double x => some (double x)
  | _, _ => none

end Value

end Interpose
