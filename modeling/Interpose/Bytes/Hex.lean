import Interpose.Bytes.LittleEndian
/-!
# Hexadecimal text

Digests, checksums and opcode bytes are reported in lowercase hexadecimal. `digits` writes a number
without leading zeros; `encode` writes two digits a byte and `decode?` reads them back in either
case of letter.
-/

namespace Interpose.Hex

/-- The digit of a value below sixteen. -/
def digit (n : Nat) : Char :=
  if n < 10 then Char.ofNat (48 + n) else Char.ofNat (87 + n)

/-- The value of a digit, in either case. -/
def value? (c : Char) : Option Nat :=
  if '0' ≤ c ∧ c ≤ '9' then some (c.toNat - 48)
  else if 'a' ≤ c ∧ c ≤ 'f' then some (c.toNat - 87)
  else if 'A' ≤ c ∧ c ≤ 'F' then some (c.toNat - 55)
  else none

/-- A number in as few digits as hold it; zero is one digit. -/
def digits (n : Nat) : String :=
  String.ofList (Nat.toDigits 16 n)

/-- A byte in two digits. -/
def byte (b : UInt8) : List Char :=
  [digit (b.toNat / 16), digit (b.toNat % 16)]

/-- Bytes as text, two digits each. -/
def encode (bs : Bytes) : String :=
  String.ofList (bs.flatMap byte)

/-- Reads pairs of digits; an odd count or a foreign character refuses the whole. -/
def decodeChars? : List Char → Option Bytes
  | [] => some []
  | [_] => none
  | a :: b :: rest => do
    let high ← value? a
    let low ← value? b
    let bs ← decodeChars? rest
    return UInt8.ofNat (16 * high + low) :: bs

/-- The bytes that a text of pairs of digits stands for. -/
def decode? (s : String) : Option Bytes :=
  decodeChars? s.toList

end Interpose.Hex
