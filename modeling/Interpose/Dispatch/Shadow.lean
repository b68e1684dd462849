import Interpose.Dispatch.Handler
/-!
# Shadows

A shadow stands in for a class: it has substitutes for methods of the class, and perhaps one for its
static initializer. A substitute is for one overload, named by its parameter types, or for all.

Of the substitutes that fit a call, one for the very overload goes before one for all overloads, and
among equals the first goes. That choice is `Shadow.find?`.
-/

namespace Interpose

/-- A substitute for a method. -/
structure ShadowMethod where
  name : String
  /-- The parameter types of the overload, or none for all overloads. -/
  params? : Option (List String)
  /-- Whether the substitute depends on the locale, so that strict checking refuses it. -/
  localeUnsafe : Bool
  body : CallRecord → Plan

/-- A stand-in for a class. -/
structure Shadow where
  name : String
  methods : List ShadowMethod := []
  staticInitializer? : Option (ClassRef → Plan) := none

/-- Whether the substitute is for the called method. -/
def ShadowMethod.fits (m : ShadowMethod) (call : CallRecord) : Bool :=
  m.name == call.method &&
    match m.params? with
    | none => true
    | some params => params == call.paramTypes

namespace Shadow

/-- Adds a substitute behind the others. -/
def add (s : Shadow) (m : ShadowMethod) : Shadow := { s with methods := s.methods ++ [m] }

/-- Adds a substitute for all overloads of a name. -/
def method (s : Shadow) (name : String) (body : CallRecord → Plan) : Shadow :=
  s.add ⟨name, none, false, body⟩

/-- Adds a substitute for one overload. -/
def overload (s : Shadow) (name : String) (params : List String) (body : CallRecord → Plan) :
    Shadow :=
  s.add ⟨name, some params, false, body⟩

/-- Adds a substitute for all overloads of a name, one that depends on the locale. -/
def localeUnsafeMethod (s : Shadow) (name : String) (body : CallRecord → Plan) : Shadow :=
  s.add ⟨name, none, true, body⟩

/-- The substitute for a call. -/
def find? (s : Shadow) (call : CallRecord) : Option ShadowMethod :=
  match s.methods.filter (·.fits call) with
  | [] => none
  | first :: rest =>
    if first.params?.isSome then some first
    else some ((rest.find? (·.params?.isSome)).getD first)

/-- The shadow as text. -/
def debug (s : Shadow) : String :=
  "ShadowClass \x7b name: " ++ Text.quote s.name ++
    ", methods: " ++ CallRecord.bracketed (s.methods.map fun m => Text.quote m.name) ++
    ", static_initializer: " ++ (if s.staticInitializer?.isSome then "true" else "false") ++ " \x7d"

end Shadow

end Interpose
