import Interpose.Toml.Quoted
/-!
# Writing documents

A document of plain keys, and of tables with plain keys behind them. A list with more than one text
stands on several lines, each of its texts with a comma behind it.
-/

namespace Interpose.Toml

/-- A value that can be written. -/
inductive Writable
  | boolean (b : Bool)
  | number (n : Nat)
  | text (s : String)
  | texts (items : List String)
  deriving DecidableEq, Repr

namespace Writable

/-- A text between quotes. -/
def quotedText (s : String) : String := String.ofList (writeQuoted s.toList)

/-- The text of a value. -/
def render : Writable → String
  | boolean true => "true"
  | boolean false => "false"
  | number n => toString n
  | text s => quotedText s
  | texts [] => "[]"
  | texts [s] => "[" ++ quotedText s ++ "]"
  | texts items =>
    "[\n" ++ String.join (items.map fun s => "    " ++ quotedText s ++ ",\n") ++ "]"

/-- The lines of some keys. -/
def renderPairs (pairs : List (String × Writable)) : String :=
  String.join (pairs.map fun (key, v) => key ++ " = " ++ v.render ++ "\n")

/-- A table under its header. -/
def renderTable (name : String) (pairs : List (String × Writable)) : String :=
  "\n[" ++ name ++ "]\n" ++ renderPairs pairs

end Writable

end Interpose.Toml
