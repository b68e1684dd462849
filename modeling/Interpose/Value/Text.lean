import Interpose.Class.Table
import Interpose.Decimal.Shortest
import Interpose.Text.Quoted
/-!
# Values as text

`typeName` is what error reports call the type of a value, `display` is the text that concatenation
and conversion to text use, and `debug` differs from it in marking texts by quotes and longs by a
letter. Objects have no text of their own; they show their class and their identity.
-/

namespace Interpose.Value

/-- The word for the type of a value. An object's type is its class. -/
def typeName (t : ClassTable) (h : Heap) : Value → String
  | null => "null"
  | bool _ => "boolean"
  | int _ => "int"
  | long _ => "long"
  | double _ => "double"
  | text _ => "string"
  | object o => (t.get (h.object o).cls).name
  | array _ => "array"
  | cls _ => "class"

/-- The text of a value. -/
def display (t : ClassTable) (h : Heap) : Value → String
  | null => "null"
  | bool true => "true"
  | bool false => "false"
  | int n => toString n.toInt
  | long n => toString n.toInt
  | double x => Decimal.text x
  | text s => s
  | object o => s!"{(t.get (h.object o).cls).name}@{Hex.digits o.index}"
  | array a => s!"array[{(h.elements a).size}]"
  | cls c => s!"class {(t.get c).name}"

/-- The text of a value in reports of calls. -/
def debug (t : ClassTable) (h : Heap) : Value → String
  | text s => Text.quote s
  | long n => s!"{n.toInt}L"
  | v => v.display t h

end Interpose.Value
