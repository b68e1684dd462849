import Interpose.Bytes.Hex
import Interpose.Text.Unprintable
/-!
# Quoted text

A text between double quotes, as listings and error reports show it. The quote and the backslash are
written behind a backslash, four controls have letters of their own, and every other character that
would leave no mark is written by its code point in braces.
-/

namespace Interpose.Text

/-- A code point as an escape. -/
def codeEscape (c : Char) : List Char :=
  ['\\', 'u', '\x7b'] ++ (Hex.digits c.toNat).toList ++ ['\x7d']

/-- One character of a quoted text. -/
def quoteChar (c : Char) : List Char :=
  if c = '"' then ['\\', '"']
  else if c = '\\' then ['\\', '\\']
  else if c = '\n' then ['\\', 'n']
  else if c = '\r' then ['\\', 'r']
  else if c = '\t' then ['\\', 't']
  else if c.toNat = 0 then ['\\', '0']
  else if c.toNat < 0x20 ∨ c.toNat = 0x7f then codeEscape c
  else if 0x80 ≤ c.toNat ∧ isUnprintable c then codeEscape c
  else [c]

/-- A text between quotes. -/
def quote (s : String) : String :=
  String.ofList ('"' :: (s.toList.flatMap quoteChar ++ ['"']))

end Interpose.Text
