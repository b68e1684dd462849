import Interpose.Instrument.Naming
import Interpose.Value.Text
/-!
# Call records

What a dispatch handler learns about a call that it intercepts. The record names the method as it
was written in the class, a constructor by the name of its renamed body. It does not say which of
several overloads was called other than by the names of the parameter types, and that is how the way
back to the declared body is found: the *direct method* is the first with the right name and the
right parameter type names.
-/

namespace Interpose

/-- An intercepted call. -/
structure CallRecord where
  /-- The class that declares the method. -/
  owner : ClassRef
  method : String
  /-- Null for a static method. -/
  receiver : Value
  paramTypes : List String
  args : List Value
  deriving DecidableEq, Repr, Inhabited

namespace CallRecord

variable (call : CallRecord)

def isConstructor : Bool := call.method == constructorBodyName

/-- An argument; null where there is none. -/
def arg (i : Nat) : Value := call.args.getD i .null

/-- The name of the method with the declared body. -/
def directName (owner : LoadedClass) : String :=
  if call.isConstructor then call.method else directMethodName owner.name call.method

/-- The position of the method with the declared body. -/
def directMethod? (t : ClassTable) : Option Nat :=
  let owner := t.get call.owner
  let name := call.directName owner
  owner.methods.findIdx? fun m => m.name == name && m.signature.paramNames == call.paramTypes

/-- Whether the method was declared native, so that there is no body. -/
def targetsNative (t : ClassTable) : Bool :=
  match call.directMethod? t with
  | none => false
  | some i =>
    match (t.get call.owner).methods[i]? with
    | some m => m.isNative
    | none => false

/-- The call as a line of text. -/
def display (t : ClassTable) (h : Heap) : String :=
  let args := (call.paramTypes.zip call.args).map fun (type, arg) => type ++ " " ++ arg.display t h
  simpleName (t.get call.owner).name ++ "." ++ call.method ++ "(" ++ ", ".intercalate args ++ ")"

/-- A list of texts in brackets. -/
def bracketed (items : List String) : String := "[" ++ ", ".intercalate items ++ "]"

/-- The record with all its parts, as text. -/
def debug (t : ClassTable) (h : Heap) : String :=
  "CallRecord \x7b class: " ++ Text.quote (t.get call.owner).name ++
    ", method_name: " ++ Text.quote call.method ++
    ", receiver: " ++ call.receiver.debug t h ++
    ", param_types: " ++ bracketed (call.paramTypes.map Text.quote) ++
    ", args: " ++ bracketed (call.args.map (·.debug t h)) ++ " \x7d"

end CallRecord

/-- What handlers and substitutes leave in the journal. -/
inductive Event
  | initializing (cls : ClassRef)
  | called (call : CallRecord)
  | substituted (shadow : String) (call : CallRecord)
  | substitutedInit (shadow : String) (cls : ClassRef)
  deriving DecidableEq, Repr, Inhabited

end Interpose
