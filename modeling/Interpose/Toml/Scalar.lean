import Interpose.Bytes.Hex
import Interpose.Toml.Document
/-!
# Numbers, truth values, dates and times

A value that is neither quoted nor bracketed is a word. Integers may have signs and underscores
between digits, and bases other than ten; they have to fit sixty-four bits. Fractions are only
checked for their form and for being finite, dates and times for their form and for denoting
something on the calendar and the clock.
-/

namespace Interpose.Toml

/-- Digits, with single underscores between them. -/
def isGrouped (p : Char → Bool) : List Char → Bool
  | [] => false
  | [c] => p c
  | c :: '_' :: rest => p c && isGrouped p rest
  | c :: rest => p c && isGrouped p rest

/-- The number of some digits; underscores do not count. -/
def grouped (base : Nat) (cs : List Char) : Nat :=
  (cs.filterMap Hex.value?).foldl (fun n v => base * n + v) 0

/-- The sign, and what follows. -/
def splitSign : List Char → Bool × List Char
  | '-' :: rest => (true, rest)
  | '+' :: rest => (false, rest)
  | rest => (false, rest)

/-- Whether digits are those of a decimal integer, without a zero in front. -/
def isDecimal (cs : List Char) : Bool :=
  isGrouped Char.isDigit cs && (cs.length == 1 || cs.head? != some '0')

/-- Whether a number fits sixty-four bits, sign included. -/
def fits (n : Int) : Bool := decide (Int64.minValue.toInt ≤ n ∧ n ≤ Int64.maxValue.toInt)

/-- An integer in a base that its second letter tells. -/
def basedInteger? (base : Nat) (p : Char → Bool) (digits : List Char) : Option Int :=
  let n : Int := grouped base digits
  if isGrouped p digits && fits n then some n else none

/-- Reads an integer. -/
def integer? : List Char → Option Int
  | '0' :: 'x' :: digits => basedInteger? 16 (fun c => (Hex.value? c).isSome) digits
  | '0' :: 'o' :: digits => basedInteger? 8 (fun c => '0' ≤ c && c ≤ '7') digits
  | '0' :: 'b' :: digits => basedInteger? 2 (fun c => c = '0' || c = '1') digits
  | cs =>
    let (negative, digits) := splitSign cs
    let n : Int := grouped 10 digits
    let n := if negative then -n else n
    if isDecimal digits && fits n then some n else none

/-! ### Fractions -/

/-- The parts of a fraction: digits before the point, digits behind it, and the exponent. -/
def fractionParts? (cs : List Char) : Option (List Char × List Char × Int) := do
  let whole := cs.takeWhile fun c => c.isDigit || c = '_'
  let rest := cs.drop whole.length
  guard (isDecimal whole && !rest.isEmpty)
  let (places, rest) ← match rest with
    | '.' :: rest =>
      let places := rest.takeWhile fun c => c.isDigit || c = '_'
      if isGrouped Char.isDigit places then some (places, rest.drop places.length) else none
    | rest => some ([], rest)
  match rest with
  | [] => some (whole, places, 0)
  | e :: rest =>
    guard (e = 'e' || e = 'E')
    let (negative, digits) := splitSign rest
    guard (isGrouped Char.isDigit digits)
    let n : Int := grouped 10 digits
    some (whole, places, if negative then -n else n)

/-- Whether a decimal is too large for a double: it rounds to one from the middle between the
largest double and the next power of two on. -/
def overflows (mantissa : Nat) (exponent : Int) : Bool :=
  if mantissa = 0 then false
  else
    let size := (Nat.toDigits 10 mantissa).length + exponent
    if 310 < size then true
    else if size < 300 then false
    else
      let limit := 1 <<< 1024 - 1 <<< 970
      if 0 ≤ exponent then decide (limit ≤ mantissa * Nat.pow 10 exponent.toNat)
      else decide (limit * Nat.pow 10 (-exponent).toNat ≤ mantissa)

/-- Whether a word is a fraction. A negative one may overflow. -/
def isFraction (cs : List Char) : Bool :=
  let (negative, body) := splitSign cs
  body == "inf".toList || body == "nan".toList ||
    match fractionParts? body with
    | none => false
    | some (whole, places, exponent) =>
      let digits := places.filter Char.isDigit
      negative || !overflows (grouped 10 (whole ++ digits)) (exponent - digits.length)

/-! ### Dates and times -/

/-- A number of exactly as many digits. -/
def fixed? (count : Nat) (cs : List Char) : Option Nat :=
  if cs.length = count ∧ cs.all Char.isDigit then some (grouped 10 cs) else none

/-- The days of a month. -/
def monthDays (year month : Nat) : Nat :=
  if month = 2 then
    if year % 4 = 0 ∧ (year % 100 ≠ 0 ∨ year % 400 = 0) then 29 else 28
  else if month = 4 ∨ month = 6 ∨ month = 9 ∨ month = 11 then 30
  else 31

/-- Whether a word is a date. -/
def isDate (cs : List Char) : Bool :=
  match fixed? 4 (cs.take 4), fixed? 2 ((cs.drop 5).take 2), fixed? 2 (cs.drop 8) with
  | some year, some month, some day =>
    cs[4]? == some '-' && cs[7]? == some '-' && 1 ≤ month && month ≤ 12 && 1 ≤ day &&
      day ≤ monthDays year month
  | _, _, _ => false

/-- Whether a word is an hour and a minute. -/
def isHourMinute (cs : List Char) : Bool :=
  match fixed? 2 (cs.take 2), fixed? 2 (cs.drop 3) with
  | some hour, some minute => cs[2]? == some ':' && hour ≤ 23 && minute ≤ 59
  | _, _ => false

/-- Whether a word is a time of day. -/
def isTime (cs : List Char) : Bool :=
  isHourMinute (cs.take 5) && cs[5]? == some ':' &&
    (match fixed? 2 ((cs.drop 6).take 2) with
      | some second => second ≤ 60
      | none => false) &&
    match cs.drop 8 with
    | [] => true
    | '.' :: places => !places.isEmpty && places.all Char.isDigit
    | _ => false

/-- Whether a word is an offset from the time of Greenwich. -/
def isOffset : List Char → Bool
  | ['Z'] | ['z'] => true
  | '+' :: rest | '-' :: rest => isHourMinute rest
  | _ => false

/-- Whether a word is a time of day with or without an offset. -/
def isOffsetTime (cs : List Char) : Bool :=
  let time := cs.takeWhile fun c => c.isDigit || c = ':' || c = '.'
  isTime time && (time.length == cs.length || isOffset (cs.drop time.length))

/-- Whether a word is a date, a time, or both. -/
def isMoment (cs : List Char) : Bool :=
  isTime cs || isDate cs ||
    (isDate (cs.take 10) && (cs[10]? == some 'T' || cs[10]? == some 't' || cs[10]? == some ' ') &&
      isOffsetTime (cs.drop 11))

/-! ### Words -/

/-- Reads a word. -/
def scalar? (cs : List Char) : Option Node :=
  if cs = "true".toList then some (.boolean true)
  else if cs = "false".toList then some (.boolean false)
  else if isMoment cs then some .moment
  else if isFraction cs then some .fraction
  else (integer? cs).map .integer

end Interpose.Toml
