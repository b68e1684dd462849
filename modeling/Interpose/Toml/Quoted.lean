import Interpose.Bytes.Hex
/-!
# Quoted texts

The four ways of writing a text: between double quotes with escapes, between single quotes without,
and either of them between three quotes, over several lines. A line break right behind the three
opening quotes is not part of the text, and in front of the three closing ones there may be up to
two more quotes, which are.

`writeQuoted` takes the first of these forms in which the text needs no escapes, in this order:
double quotes, single quotes, three double quotes, three single quotes. If there is none it escapes.
-/

namespace Interpose.Toml

/-- Characters that may stand on a line: the tab, and what is no control. -/
def isPlain (c : Char) : Bool := c = '\t' || (0x20 ≤ c.toNat && c.toNat ≠ 0x7f)

def isBlank (c : Char) : Bool := c = ' ' || c = '\t'

/-! ## Reading -/

/-- The character of a code point in hexadecimal. -/
def escapedChar? (digits : List Char) : Option Char := do
  let values ← digits.mapM Hex.value?
  let n := values.foldl (fun n v => 16 * n + v) 0
  if n.isValidChar then some (Char.ofNat n) else none

/-- The character that a letter behind a backslash stands for. -/
def shortEscape? : Char → Option Char
  | 'b' => some '\x08'
  | 't' => some '\t'
  | 'n' => some '\n'
  | 'f' => some '\x0c'
  | 'r' => some '\r'
  | '"' => some '"'
  | '\\' => some '\\'
  | _ => none

/-- Puts a character in front of a text that has been read. -/
def consChar (c : Char) (r : Option (List Char × List Char)) : Option (List Char × List Char) :=
  r.map fun (text, rest) => (c :: text, rest)

/-- Reads a text between double quotes, from behind the opening one. -/
def readBasic : List Char → Option (List Char × List Char)
  | '"' :: rest => some ([], rest)
  | '\\' :: 'u' :: a :: b :: c :: d :: rest => do
    consChar (← escapedChar? [a, b, c, d]) (readBasic rest)
  | '\\' :: 'U' :: a :: b :: c :: d :: e :: f :: g :: h :: rest => do
    consChar (← escapedChar? [a, b, c, d, e, f, g, h]) (readBasic rest)
  | '\\' :: c :: rest => do consChar (← shortEscape? c) (readBasic rest)
  | c :: rest => if isPlain c then consChar c (readBasic rest) else none
  | [] => none

/-- Reads a text between single quotes, from behind the opening one. -/
def readLiteral : List Char → Option (List Char × List Char)
  | '\'' :: rest => some ([], rest)
  | c :: rest => if isPlain c then consChar c (readLiteral rest) else none
  | [] => none

/-- Whether the line ends here. -/
def atLineEnd : List Char → Bool
  | '\n' :: _ => true
  | '\r' :: '\n' :: _ => true
  | _ => false

/-- Reads a text between three double quotes, from behind the opening ones. A backslash at the end
of a line takes away all blanks and line breaks that follow; `skipping` says so. -/
def readLongBasic (skipping : Bool) : List Char → Option (List Char × List Char)
  | '"' :: '"' :: '"' :: '"' :: '"' :: rest => some (['"', '"'], rest)
  | '"' :: '"' :: '"' :: '"' :: rest => some (['"'], rest)
  | '"' :: '"' :: '"' :: rest => some ([], rest)
  | '\r' :: '\n' :: rest =>
    if skipping then readLongBasic true rest else consChar '\n' (readLongBasic false rest)
  | '\n' :: rest =>
    if skipping then readLongBasic true rest else consChar '\n' (readLongBasic false rest)
  | '\\' :: 'u' :: a :: b :: c :: d :: rest => do
    consChar (← escapedChar? [a, b, c, d]) (readLongBasic false rest)
  | '\\' :: 'U' :: a :: b :: c :: d :: e :: f :: g :: h :: rest => do
    consChar (← escapedChar? [a, b, c, d, e, f, g, h]) (readLongBasic false rest)
  | '\\' :: c :: rest =>
    if atLineEnd ((c :: rest).dropWhile isBlank) then readLongBasic true (c :: rest)
    else do consChar (← shortEscape? c) (readLongBasic false rest)
  | c :: rest =>
    if skipping && isBlank c then readLongBasic true rest
    else if isPlain c then consChar c (readLongBasic false rest)
    else none
  | [] => none

/-- Reads a text between three single quotes, from behind the opening ones. -/
def readLongLiteral : List Char → Option (List Char × List Char)
  | '\'' :: '\'' :: '\'' :: '\'' :: '\'' :: rest => some (['\'', '\''], rest)
  | '\'' :: '\'' :: '\'' :: '\'' :: rest => some (['\''], rest)
  | '\'' :: '\'' :: '\'' :: rest => some ([], rest)
  | '\r' :: '\n' :: rest => consChar '\n' (readLongLiteral rest)
  | '\n' :: rest => consChar '\n' (readLongLiteral rest)
  | c :: rest => if isPlain c then consChar c (readLongLiteral rest) else none
  | [] => none

/-- The rest of a line break, if there is one. -/
def dropLineBreak : List Char → List Char
  | '\n' :: rest => rest
  | '\r' :: '\n' :: rest => rest
  | rest => rest

/-- Reads a text in any of the four forms. -/
def readQuoted : List Char → Option (List Char × List Char)
  | '"' :: '"' :: '"' :: rest => readLongBasic false (dropLineBreak rest)
  | '\'' :: '\'' :: '\'' :: rest => readLongLiteral (dropLineBreak rest)
  | '"' :: rest => readBasic rest
  | '\'' :: rest => readLiteral rest
  | _ => none

/-! ## Writing -/

/-- The longest run of a character. -/
def longestRun (c : Char) (cs : List Char) : Nat :=
  (cs.foldl (fun (best, now) x => if x = c then (max best (now + 1), now + 1) else (best, 0))
    (0, 0)).1

/-- What decides in which form a text is written. -/
structure Features where
  /-- Controls that only an escape can stand for. -/
  controls : Bool
  backslash : Bool
  lineBreak : Bool
  doubleQuotes : Nat
  singleQuotes : Nat
  deriving DecidableEq, Repr

def Features.of (cs : List Char) : Features :=
  { controls := cs.any fun c => c ≠ '\n' && !isPlain c
    backslash := cs.contains '\\'
    lineBreak := cs.contains '\n'
    doubleQuotes := longestRun '"' cs
    singleQuotes := longestRun '\'' cs }

/-- A code point as an escape. -/
def codeEscape (c : Char) : List Char :=
  let digits := (Nat.toDigits 16 c.toNat).map Char.toUpper
  ['\\', 'u'] ++ List.replicate (4 - digits.length) '0' ++ digits

/-- Writes the inside of a text with escapes. Over several lines a line break stays as it is, and so
do double quotes as long as there are no three of them; `run` counts the ones just written. -/
def escaped (long : Bool) (run : Nat) : List Char → List Char
  | [] => []
  | c :: rest =>
    if c = '"' then
      if (if long then 2 else 0) ≤ run then ['\\', '"'] ++ escaped long 0 rest
      else c :: escaped long (run + 1) rest
    else
      (if c = '\x08' then ['\\', 'b']
        else if c = '\t' then ['\\', 't']
        else if c = '\n' then if long then [c] else ['\\', 'n']
        else if c = '\x0c' then ['\\', 'f']
        else if c = '\r' then ['\\', 'r']
        else if c = '\\' then ['\\', '\\']
        else if isPlain c then [c]
        else codeEscape c) ++ escaped long 0 rest

/-- The quotes of a text that stands on one line, or of one over several lines. -/
def quoted (quote : Char) (long lineBreak : Bool) (inside : List Char) : List Char :=
  let marks := List.replicate (if long then 3 else 1) quote
  marks ++ (if long && lineBreak then ['\n'] else []) ++ inside ++ marks

/-- Writes a text. -/
def writeQuoted (cs : List Char) : List Char :=
  let f := Features.of cs
  if !f.controls && !f.backslash && !f.lineBreak && f.doubleQuotes = 0 then
    quoted '"' false false (escaped false 0 cs)
  else if !f.controls && !f.lineBreak && f.singleQuotes = 0 then quoted '\'' false false cs
  else if !f.controls && !f.backslash && f.doubleQuotes ≤ 2 then
    quoted '"' true f.lineBreak (escaped true 0 cs)
  else if !f.controls && f.singleQuotes ≤ 2 then quoted '\'' true f.lineBreak cs
  else if f.lineBreak then quoted '"' true true (escaped true 0 cs)
  else quoted '"' false false (escaped false 0 cs)

end Interpose.Toml
