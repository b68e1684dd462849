/-!
# Double-precision numbers by their bits

A double is carried as the 64 bits of its binary64 form, so that every pattern, every NaN payload
included, has a value of its own. What depends on the pattern alone is decided on the pattern:
whether it is a NaN or a zero, whether two doubles compare equal, and the change of sign. Rounded
arithmetic is left to `Float`.
-/

namespace Interpose

/-- The bits of a double. -/
abbrev Binary64 := UInt64

namespace Binary64

/-- The bits below the sign. -/
def magnitude (x : Binary64) : UInt64 := x &&& 0x7fffffffffffffff

/-- A NaN has all exponent bits set and a mantissa. -/
def isNan (x : Binary64) : Bool := decide (0x7ff0000000000000 < x.magnitude)

/-- Zero, of either sign. -/
def isZero (x : Binary64) : Bool := x.magnitude == 0

/-- Comparison as numbers: a NaN differs from everything, and the two zeros are equal. -/
def equal (x y : Binary64) : Bool :=
  !x.isNan && !y.isNan && (x == y || x.isZero && y.isZero)

/-- The change of sign, which a NaN and a zero take part in. -/
def negate (x : Binary64) : Binary64 := x ^^^ 0x8000000000000000

def add (x y : Binary64) : Binary64 := (Float.ofBits x + Float.ofBits y).toBits

def sub (x y : Binary64) : Binary64 := (Float.ofBits x - Float.ofBits y).toBits

def mul (x y : Binary64) : Binary64 := (Float.ofBits x * Float.ofBits y).toBits

def div (x y : Binary64) : Binary64 := (Float.ofBits x / Float.ofBits y).toBits

/-- The double nearest to an integer, of two the one with an even mantissa. -/
def ofLong (n : Int64) : Binary64 := n.toFloat.toBits

end Binary64

end Interpose
