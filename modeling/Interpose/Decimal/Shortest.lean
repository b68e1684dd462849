/-!
# The shortest decimal that reads back

A double is written with as few digits as tell it from its neighbours. The reals that round to a
given double form an interval around it, reaching half way to the neighbour on each side; the ends
belong to it exactly when the double's significand is even, since ties round to even. For one digit,
two digits and so on, the two points of that decimal grid next to the double are tried; the
first grid with a point inside the interval gives the digits. Of two points inside, the nearer is
taken, and on a tie the greater.

Everything is exact arithmetic on natural numbers: a value is a quotient `num / den`, and the
interval is held as three numerators over one denominator.

`Layout` says how the digits are shown. The one used here is positional at every magnitude.
-/

namespace Interpose.Decimal

/-- A positive double as exact numbers: the value, and the two ends of the interval of reals that
round to it, all over `den`. -/
structure Interval where
  low : Nat
  value : Nat
  high : Nat
  den : Nat
  /-- Whether the ends round to the value. -/
  closed : Bool

/-- The interval of `significand * 2 ^ exponent`. At a power of two the neighbour below is half as
far away as the one above, unless there is no smaller exponent. -/
def Interval.ofParts (significand : Nat) (exponent : Int) (halfGapBelow : Bool) : Interval :=
  let (scale, den) :=
    if 0 ≤ exponent then (1 <<< exponent.toNat, 4) else (1, 4 <<< (-exponent).toNat)
  let below := if halfGapBelow then 1 else 2
  ⟨(4 * significand - below) * scale, 4 * significand * scale, (4 * significand + 2) * scale, den,
    significand % 2 == 0⟩

/-- The number of decimal digits of a natural number; zero has one. -/
def digitCount (n : Nat) : Nat := (Nat.toDigits 10 n).length

/-- The greatest power of ten that is at most `num / den`. -/
def magnitude (num den : Nat) : Int :=
  if den ≤ num then
    (digitCount (num / den) - 1 : Nat)
  else
    let k := digitCount (den / num)
    if den ≤ num * Nat.pow 10 (k - 1) then -((k - 1 : Nat) : Int) else -(k : Int)

/-- Whether the grid point `digits * 10 ^ power` lies in the interval. -/
def Interval.contains (i : Interval) (digits : Nat) (power : Int) : Bool :=
  let (num, scale) :=
    if 0 ≤ power then (digits * Nat.pow 10 power.toNat * i.den, 1)
    else (digits * i.den, Nat.pow 10 (-power).toNat)
  if i.closed then i.low * scale ≤ num && num ≤ i.high * scale
  else i.low * scale < num && num < i.high * scale

/-- The two neighbours of the value on the grid of a power of ten, and how the value lies between
them: `lt` when it is nearer the lower, `gt` when it is nearer the upper. -/
def Interval.neighbours (i : Interval) (power : Int) : Nat × Ordering :=
  let (num, den) :=
    if 0 ≤ power then (i.value, i.den * Nat.pow 10 power.toNat)
    else (i.value * Nat.pow 10 (-power).toNat, i.den)
  let lower := num / den
  (lower, compare (2 * (num - lower * den)) den)

/-- The grid point of a power of ten that stands for the value, if one is inside the interval. -/
def Interval.pick (i : Interval) (power : Int) : Option Nat :=
  let (lower, nearer) := i.neighbours power
  match i.contains lower power, i.contains (lower + 1) power with
  | true, true => some (if nearer = .lt then lower else lower + 1)
  | true, false => some lower
  | false, true => some (lower + 1)
  | false, false => none

/-- Tries finer and finer grids. Seventeen digits always suffice. -/
def Interval.search (i : Interval) : Nat → Int → Nat × Int
  | 0, power => ((i.neighbours power).1, power)
  | tries + 1, power =>
    match i.pick power with
    | some digits => (digits, power)
    | none => search i tries (power - 1)

/-- Digits and power of ten of the shortest decimal. -/
def Interval.shortest (i : Interval) : Nat × Int :=
  i.search 17 (magnitude i.value i.den)

/-- What a double is, read off its bits. -/
inductive Parts
  | nan
  | infinite (negative : Bool)
  | zero (negative : Bool)
  /-- A finite value other than zero. -/
  | finite (negative : Bool) (interval : Interval)

/-- Takes a double's bits apart. -/
def Parts.ofBits (bits : UInt64) : Parts :=
  let negative := bits >>> 63 == 1
  let exponent := ((bits >>> 52) &&& 0x7FF).toNat
  let fraction := (bits &&& 0xFFFFFFFFFFFFF).toNat
  if exponent = 0x7FF then
    if fraction = 0 then .infinite negative else .nan
  else if exponent = 0 then
    if fraction = 0 then .zero negative else .finite negative (.ofParts fraction (-1074) false)
  else
    .finite negative
      (.ofParts (0x10000000000000 + fraction) ((exponent : Int) - 1075) (fraction == 0 && exponent > 1))

/-- Digits with the decimal point where a power of ten puts it; a whole number has no point. -/
def positional (digits : Nat) (power : Int) : String :=
  let text := Nat.toDigits 10 digits
  if 0 ≤ power then
    if digits = 0 then "0" else String.ofList (text ++ List.replicate power.toNat '0')
  else
    let places := (-power).toNat
    let padded := List.replicate (places + 1 - text.length) '0' ++ text
    let whole := padded.take (padded.length - places)
    let part := padded.drop (padded.length - places)
    let part := (part.reverse.dropWhile (· == '0')).reverse
    if part.isEmpty then String.ofList whole else String.ofList (whole ++ '.' :: part)

/-- A double as text: positional, without a fraction when it is whole, and with its sign even when
it is zero. -/
def text (bits : UInt64) : String :=
  let signed := fun (negative : Bool) (s : String) => if negative then "-" ++ s else s
  match Parts.ofBits bits with
  | .nan => "NaN"
  | .infinite negative => signed negative "inf"
  | .zero negative => signed negative "0"
  | .finite negative interval =>
    let (digits, power) := interval.shortest
    signed negative (positional digits power)

end Interpose.Decimal
