/-!
# Types and signatures

The types a class file can name, and the two ways of writing one: its *descriptor*, a compact text
used inside class files, and its *name*, the text reported in call records. `void` is a type here
because a signature returns it; that it may not be a parameter or an element is the grammar's
business (`WellFormed`).

A class name inside a descriptor ends at the first semicolon, so the only class names a descriptor
can carry are the nonempty ones without one. Names are looser: `ofName` accepts every text, and a
class that happens to be called `int` or `x[]` is read back as something else.
-/

namespace Interpose

/-- A value type, or `void`. -/
inductive TypeDesc
  | void
  | bool
  | int
  | long
  | double
  | text
  | any
  | object (name : String)
  | array (element : TypeDesc)
  deriving DecidableEq, Repr, Inhabited

namespace TypeDesc

/-- The descriptor, as characters. -/
def chars : TypeDesc → List Char
  | void => ['V']
  | bool => ['Z']
  | int => ['I']
  | long => ['J']
  | double => ['D']
  | text => ['T']
  | any => ['X']
  | object name => 'L' :: (name.toList ++ [';'])
  | array element => '[' :: element.chars

/-- The descriptor. -/
def descriptor (t : TypeDesc) : String := String.ofList t.chars

/-- What a descriptor can denote apart from `void`: class names are nonempty and hold no
semicolon, and no array has `void` elements. -/
inductive WellFormed : TypeDesc → Prop
  | bool : WellFormed bool
  | int : WellFormed int
  | long : WellFormed long
  | double : WellFormed double
  | text : WellFormed text
  | any : WellFormed any
  | object {name : String} (nonempty : name ≠ "") (closed : ';' ∉ name.toList) :
      WellFormed (object name)
  | array {element : TypeDesc} : WellFormed element → WellFormed (array element)

/-- The name reported in call records. -/
def name : TypeDesc → String
  | void => "void"
  | bool => "boolean"
  | int => "int"
  | long => "long"
  | double => "double"
  | text => "string"
  | any => "any"
  | object name => name
  | array element => element.name ++ "[]"

/-- The type without array brackets that a name stands for: the words of the language, and a class
for anything else. -/
def ofBaseName (s : String) : TypeDesc :=
  match s with
  | "void" => void
  | "boolean" => bool
  | "int" => int
  | "long" => long
  | "double" => double
  | "string" => text
  | "any" => any
  | other => object other

/-- Reads a name from its end: each trailing pair of brackets is one array. -/
def ofReversedName : List Char → TypeDesc
  | ']' :: '[' :: rest => array (ofReversedName rest)
  | rest => ofBaseName (String.ofList rest.reverse)

/-- The type that a name stands for. -/
def ofName (s : String) : TypeDesc := ofReversedName s.toList.reverse

/-- Whether values of the type are stored unboxed and default to a zero. -/
def isPrimitive : TypeDesc → Bool
  | bool | int | long | double => true
  | _ => false

def isVoid : TypeDesc → Bool
  | void => true
  | _ => false

/-- The operand by which an unboxing instruction names a primitive type. -/
def tag? : TypeDesc → Option UInt8
  | bool => some 1
  | int => some 2
  | long => some 3
  | double => some 4
  | _ => none

/-- The primitive type of an operand. -/
def ofTag? (tag : UInt8) : Option TypeDesc :=
  [bool, int, long, double].find? fun t => t.tag? == some tag

@[simp] theorem isVoid_iff {t : TypeDesc} : t.isVoid = true ↔ t = void := by
  cases t <;> simp [isVoid]

end TypeDesc

/-- The parameter and return types of a method. -/
structure MethodDesc where
  params : List TypeDesc
  ret : TypeDesc
  deriving DecidableEq, Repr, Inhabited

namespace MethodDesc

/-- The descriptor, as characters. -/
def chars (m : MethodDesc) : List Char :=
  '(' :: (m.params.flatMap TypeDesc.chars ++ ')' :: m.ret.chars)

/-- The descriptor. -/
def descriptor (m : MethodDesc) : String := String.ofList m.chars

/-- Parameters are value types; the return type may be `void` as well. -/
structure WellFormed (m : MethodDesc) : Prop where
  params : ∀ t ∈ m.params, t.WellFormed
  ret : m.ret = .void ∨ m.ret.WellFormed

/-- The number of arguments, the receiver not counted. -/
def arity (m : MethodDesc) : Nat := m.params.length

/-- The names of the parameter types, in order. -/
def paramNames (m : MethodDesc) : List String := m.params.map TypeDesc.name

end MethodDesc

end Interpose
