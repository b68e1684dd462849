import Interpose.Class.Basic
/-!
# Definition

From a class file to a loaded class. Methods come first and fields second, each in declaration
order, and the first thing that does not decode or parse fails the definition.

Layout: the instance slots of the superclass keep their numbers, and own fields follow in
declaration order. A field declared twice takes two slots, of which a name finds the later.
-/

namespace Interpose

/-- Why a class file cannot be defined. -/
inductive DefineError
  | code (method : String) (cause : DecodeError)
  | descriptor (member : String) (cause : DescriptorError)
  deriving DecidableEq, Repr

/-- The report of a failed definition. -/
def DefineError.message : DefineError → String
  | code method cause => s!"Undecodable code in {method}: {cause.message}"
  | descriptor member cause => s!"Bad descriptor on {member}: {cause.message}"

/-- Prepares a method of the class `owner` for execution. -/
def LoadedMethod.define (owner : String) (m : MethodDef) : Except DefineError LoadedMethod :=
  match MethodDesc.parse m.descriptor with
  | .error cause => .error (.descriptor (owner ++ "." ++ m.name) cause)
  | .ok signature =>
    match Code.decode m.code with
    | .error cause => .error (.code (owner ++ "." ++ m.name) cause)
    | .ok code => .ok ⟨m.name, m.descriptor, signature, m.access, m.maxLocals, code.toArray⟩

/-- The slots of a class while its fields are laid out. -/
structure Layout where
  fieldSlots : List (String × Nat) := []
  fieldDefaults : Array Value
  staticSlots : List (String × Nat) := []
  statics : Array Value := #[]
  deriving DecidableEq, Repr, Inhabited

/-- Gives the next free slot of its kind to a field. -/
def Layout.add (layout : Layout) (name : String) (isStatic : Bool) (t : TypeDesc) : Layout :=
  if isStatic then
    { layout with
      staticSlots := (name, layout.statics.size) :: layout.staticSlots
      statics := layout.statics.push (.zeroFor t) }
  else
    { layout with
      fieldSlots := (name, layout.fieldDefaults.size) :: layout.fieldSlots
      fieldDefaults := layout.fieldDefaults.push (.zeroFor t) }

/-- Lays out the fields of the class `owner`, in order. -/
def Layout.addAll (owner : String) (layout : Layout) : List FieldDef → Except DefineError Layout
  | [] => .ok layout
  | f :: rest =>
    match TypeDesc.parse f.descriptor with
    | .error cause => .error (.descriptor (owner ++ "." ++ f.name) cause)
    | .ok t => (layout.add f.name f.isStatic t).addAll owner rest

/-- What a loader decides about a class that it defines. -/
structure Definer where
  loader : LoaderRef
  orphan : Bool := false
  instrumented : Bool := false
  /-- The handler that instrumented classes are given. -/
  handler? : Option HandlerRef := none
  deriving DecidableEq, Repr, Inhabited

/-- Defines a class file below its superclass. -/
def LoadedClass.define (definer : Definer) (superclass? : Option (ClassRef × LoadedClass))
    (file : ClassFile) : Except DefineError LoadedClass := do
  let methods ← file.methods.mapM (LoadedMethod.define file.name)
  let inherited := match superclass? with
    | some (_, s) => s.fieldDefaults
    | none => #[]
  let layout ← Layout.addAll file.name { fieldDefaults := inherited } file.fields
  return {
    name := file.name
    loader := definer.loader
    orphan := definer.orphan
    ancestors := match superclass? with
      | some (ref, s) => ref :: s.ancestors
      | none => []
    constants := file.constants
    annotations := file.annotations
    methods := methods
    fieldSlots := layout.fieldSlots
    fieldDefaults := layout.fieldDefaults
    staticSlots := layout.staticSlots
    statics := layout.statics
    state := .uninitialized
    instrumented := definer.instrumented
    handler? := if definer.instrumented then definer.handler? else none }

end Interpose
