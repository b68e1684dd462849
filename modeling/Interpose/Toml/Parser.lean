import Interpose.Toml.Quoted
import Interpose.Toml.Scalar
/-!
# Reading documents

A text is cut into statements, and the statements are put together. Where a text is no document the
answer is `none`, whatever is wrong with it.

Values are nested in brackets and braces. How deep is limited, and the limit is what the recursion
runs on; the items of one pair of brackets are read by a loop that runs on the length of the text.
-/

namespace Interpose.Toml

/-- Reads some text and leaves the rest. -/
abbrev Reading := StateT (List Char) Option

/-- Fewer names or brackets than this may stand inside each other. -/
def nestingLimit : Nat := 80

namespace Reading

/-- The text ahead. -/
def ahead : Reading (List Char) := get

/-- The next character, left where it is. -/
def peek? : Reading (Option Char) := return (← ahead).head?

/-- Takes one character, which has to be this one. -/
def expect (c : Char) : Reading Unit := fun
  | x :: rest => if x = c then some ((), rest) else none
  | [] => none

/-- Takes characters as long as they pass a test. -/
def takeWhile (p : Char → Bool) : Reading (List Char) := fun cs => some (cs.span p)

def skipBlanks : Reading Unit := do let _ ← takeWhile isBlank

/-- Takes a comment, if there is one. -/
def skipComment : Reading Unit := do
  if (← peek?) = some '#' then
    let _ ← takeWhile isPlain

/-- Takes a line break, or nothing at the end of the text. -/
def lineEnd : Reading Unit := do
  let cs ← ahead
  guard (cs.isEmpty || atLineEnd cs)
  set (dropLineBreak cs)

/-- Takes blanks, line breaks and comments. -/
def skipLines : Nat → Reading Unit
  | 0 => pure ()
  | fuel + 1 => do
    skipBlanks
    let cs ← ahead
    if atLineEnd cs then
      set (dropLineBreak cs)
      skipLines fuel
    else if cs.head? = some '#' then
      skipComment
      lineEnd
      skipLines fuel

/-- Takes whatever can stand between the items of an array. -/
def skipFiller : Reading Unit := do skipLines ((← ahead).length + 1)

/-! ### Keys -/

/-- Characters of a key without quotes. -/
def isBare (c : Char) : Bool := c.isAlphanum || c = '_' || c = '-'

/-- One name. -/
def simpleKey : Reading String := do
  match ← peek? with
  | some '"' =>
    expect '"'
    return String.ofList (← StateT.mk readBasic)
  | some '\'' =>
    expect '\''
    return String.ofList (← StateT.mk readLiteral)
  | _ =>
    let name ← takeWhile isBare
    guard !name.isEmpty
    return String.ofList name

/-- Names with dots between them. -/
def names : Nat → Reading (List String)
  | 0 => failure
  | fuel + 1 => do
    skipBlanks
    let name ← simpleKey
    skipBlanks
    if (← peek?) = some '.' then
      expect '.'
      return name :: (← names fuel)
    else return [name]

/-- A dotted key. -/
def path : Reading (List String) := do
  let names ← names ((← ahead).length + 1)
  guard (names.length < nestingLimit)
  return names

/-! ### Values -/

/-- Characters of a word. -/
def isWord (c : Char) : Bool :=
  c.isAlphanum || c = '_' || c = '-' || c = '+' || c = '.' || c = ':'

/-- A value without quotes or brackets. A date may be followed by a blank and a time. -/
def word : Reading Node := do
  let first ← takeWhile isWord
  let whole ← match isDate first, ← ahead with
    | true, ' ' :: c :: _ =>
      if c.isDigit then do
        expect ' '
        pure (first ++ ' ' :: (← takeWhile isWord))
      else pure first
    | _, _ => pure first
  StateT.lift (scalar? whole)

/-- The items of an array, from behind the opening bracket or a comma. -/
def items (value : Reading Node) : Nat → Reading (List Node)
  | 0 => failure
  | fuel + 1 => do
    skipFiller
    if (← peek?) = some ']' then
      expect ']'
      return []
    let item ← value
    skipFiller
    if (← peek?) = some ',' then
      expect ','
      return item :: (← items value fuel)
    else
      expect ']'
      return [item]

/-- A dotted key and a value. -/
def pair (value : Reading Node) : Reading (List String × Node) := do
  let path ← path
  expect '='
  skipBlanks
  return (path, ← value)

/-- The keys of an inline table, from behind the opening brace or a comma. -/
def inlinePairs (value : Reading Node) : Nat → Reading (List (List String × Node))
  | 0 => failure
  | fuel + 1 => do
    let first ← pair value
    skipBlanks
    if (← peek?) = some ',' then
      expect ','
      return first :: (← inlinePairs value fuel)
    else
      expect '\x7d'
      return [first]

/-- An inline table, from behind the opening brace. -/
def inlineTable (value : Reading Node) : Reading Node := do
  skipBlanks
  if (← peek?) = some '\x7d' then
    expect '\x7d'
    return .table .inline []
  let pairs ← inlinePairs value ((← ahead).length + 1)
  let entries ← StateT.lift (pairs.foldlM (fun e (path, v) => Entries.insert e path v) [])
  return .table .inline entries

/-- A value, with fewer brackets around each other than given. -/
def value : Nat → Reading Node
  | 0 => failure
  | depth + 1 => do
    match ← peek? with
    | some '"' | some '\'' => return .text (String.ofList (← StateT.mk readQuoted))
    | some '[' =>
      guard (depth ≠ 0)
      expect '['
      return .array (← items (value depth) ((← ahead).length + 1))
    | some '\x7b' =>
      guard (depth ≠ 0)
      expect '\x7b'
      inlineTable (value depth)
    | _ => word

/-! ### Statements -/

/-- A header, from behind the opening bracket. -/
def header : Reading Statement := do
  if (← peek?) = some '[' then
    expect '['
    let path ← path
    expect ']'
    expect ']'
    return .header true path
  else
    let path ← path
    expect ']'
    return .header false path

/-- A statement, to the end of its line. -/
def statement : Reading Statement := do
  let s ← if (← peek?) = some '[' then
      expect '['
      header
    else
      let (path, v) ← pair (value nestingLimit)
      pure (.pair path v)
  skipBlanks
  skipComment
  lineEnd
  return s

/-- The statements of a text. -/
def statements : Nat → Reading (List Statement)
  | 0 => failure
  | fuel + 1 => do
    skipFiller
    if (← ahead).isEmpty then return []
    let s ← statement
    return s :: (← statements fuel)

end Reading

/-- Reads a document. A mark of byte order in front does not count. -/
def parse (text : String) : Option Entries := do
  let cs := match text.toList with
    | '\ufeff' :: rest => rest
    | cs => cs
  let (statements, _) ← Reading.statements (cs.length + 1) cs
  document statements

end Interpose.Toml
