import Interpose.ClassFile.Basic
import Interpose.Decimal.Shortest
import Interpose.Text.Quoted
/-!
# Class listings

A class as text for people: a line for the class, one for each annotation, field and method, and one
for each instruction. A listing never fails. A reference that the pool does not hold is shown as a
question mark, and a body that cannot be decoded is shown as the reason why.
-/

namespace Interpose.Listing

/-- The words for the flags that are set, in the order of their bits. -/
def access (flags : Access) : String :=
  String.intercalate " " ((Modifier.all.filter fun m => flags.has m).map Modifier.name)

/-- A number in four digits or more. -/
def index (n : Nat) : String :=
  let digits := Nat.toDigits 10 n
  String.ofList (List.replicate (4 - digits.length) '0' ++ digits)

/-- The operand of an instruction, if it has one. -/
def operand? (pool : Pool) : Instruction → Option String
  | .simple _ => none
  | .constInt v => some (toString v.toInt)
  | .constLong v => some (toString v.toInt)
  | .constDouble bits => some (Decimal.text bits)
  | .constString i => some (Text.quote ((pool.string? i).getD "?"))
  | .constClass i | .new i | .instanceOf i => some ((pool.class? i).getD "?")
  | .loadLocal n | .storeLocal n => some (toString n.toNat)
  | .field _ i => some (((pool.field? i).map fun f => f.owner ++ "." ++ f.name).getD "?")
  | .invoke _ i =>
    some (((pool.method? i).map fun m => m.owner ++ "." ++ m.name ++ m.descriptor).getD "?")
  | .unbox tag => some (toString tag.toNat)
  | .jump _ label => some ("-> " ++ index label)

/-- An instruction as text. -/
def instruction (pool : Pool) (i : Instruction) : String :=
  match operand? pool i with
  | none => i.opcode.name
  | some operand => i.opcode.name ++ " " ++ operand

/-- The lines of a method body; a method without one has none. -/
def body (pool : Pool) (code : Bytes) : List String :=
  if code.isEmpty then []
  else
    match Code.decode code with
    | .error e => ["    <" ++ e.message ++ ">"]
    | .ok code =>
      code.zipIdx.map fun (i, n) => "    " ++ index n ++ ": " ++ instruction pool i

/-- The lines of a method. -/
def method (pool : Pool) (m : MethodDef) : List String :=
  let head := "  method " ++ m.name ++ m.descriptor ++ " [" ++ access m.access ++ "]"
  let throws :=
    if m.exceptions.isEmpty then "" else " throws " ++ String.intercalate ", " m.exceptions
  (head ++ throws) :: body pool m.code

/-- The line of a field. -/
def field (f : FieldDef) : String :=
  "  field " ++ f.name ++ ": " ++ f.descriptor ++ " [" ++ access f.access ++ "]"

/-- The lines of a class. -/
def lines (c : ClassFile) : List String :=
  let super := (c.superName.map fun s => " extends " ++ s).getD ""
  ("class " ++ c.name ++ super ++ " [" ++ access c.access ++ "]")
    :: c.annotations.map (fun a => "  @" ++ a)
    ++ c.fields.map field
    ++ c.methods.flatMap (method c.constants)

/-- A class as text, each line closed by a line feed. -/
def render (c : ClassFile) : String :=
  String.join ((lines c).map fun line => line ++ "\n")

end Interpose.Listing
