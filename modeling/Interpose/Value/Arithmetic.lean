import Interpose.Opcode
import Interpose.Value.Basic
/-!
# Arithmetic

What the arithmetic instructions compute. Two ints give an int, and any other mix of ints and longs
gives a long; both wrap around. Division truncates towards zero and the remainder takes the sign of
the dividend; the smallest number divided by minus one wraps around to itself.

Dividing by zero is not decided here: the machine refuses it before it asks.
-/

namespace Interpose

namespace IntOp

/-- The operation on ints. -/
def int : IntOp → Int32 → Int32 → Int32
  | add, a, b => a + b
  | sub, a, b => a - b
  | mul, a, b => a * b
  | div, a, b => a / b
  | mod, a, b => a % b

/-- The operation on longs. -/
def long : IntOp → Int64 → Int64 → Int64
  | add, a, b => a + b
  | sub, a, b => a - b
  | mul, a, b => a * b
  | div, a, b => a / b
  | mod, a, b => a % b

/-- Whether the operation has no result for a divisor of zero. -/
def divides : IntOp → Bool
  | div | mod => true
  | add | sub | mul => false

end IntOp

/-- The operation on doubles. -/
def FloatOp.double : FloatOp → Binary64 → Binary64 → Binary64
  | add, a, b => a.add b
  | sub, a, b => a.sub b
  | mul, a, b => a.mul b
  | div, a, b => a.div b

/-- The comparison of two integers. -/
def Relation.holds : Relation → Int64 → Int64 → Bool
  | eq, a, b => a == b
  | ne, a, b => a != b
  | lt, a, b => decide (a < b)
  | le, a, b => decide (a ≤ b)
  | gt, a, b => decide (b < a)
  | ge, a, b => decide (b ≤ a)

end Interpose
