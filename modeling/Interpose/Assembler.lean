import Interpose.ClassFile.Basic
/-!
# Assembling method bodies and classes

Programs are written with operands by name and with labels. Three layers turn them into class files.

* A `Draft` holds the instructions emitted so far and the label table. A label is allocated, may be
  marked any number of times, and stands for the place of its last mark; jumps may be emitted
  before that. `Draft.finish` replaces labels by instruction indices and fails on the first jump
  whose label was never marked.
* An `Item` is an instruction whose pool operand is still a name. `Item.resolveAll` interns the
  names in the order in which the items stand, which fixes the pool of the result.
* A `ClassDraft` collects members. The first error sticks and later methods are ignored; `build`
  reports it.

The slots of an assembled method are counted from its body, in sixteen bits: a body that touches the
last possible slot wraps the count round to nothing.
-/

namespace Interpose

/-- Why a class cannot be assembled. -/
inductive BuildError
  /-- A jump names a label that was never marked. -/
  | unboundLabel (label : Nat)
  | invalidDescriptor (cause : DescriptorError)
  deriving DecidableEq, Repr

namespace BuildError

/-- The report of an assembly error. -/
def message : BuildError → String
  | unboundLabel label => s!"Label {label} was never marked"
  | invalidDescriptor cause => cause.message

end BuildError

/-! ## Labels -/

/-- One call on a draft. -/
inductive Directive
  | newLabel
  | mark (label : Nat)
  | emit (i : Instruction)
  deriving DecidableEq, Repr

/-- Instructions under construction. A label's entry is the number of instructions emitted before
its last mark. -/
structure Draft where
  emitted : Array Instruction := #[]
  labels : Array (Option Nat) := #[]
  deriving DecidableEq, Repr, Inhabited

namespace Draft

/-- Follows one directive. Marking a label that was not allocated does nothing. -/
def step (d : Draft) : Directive → Draft
  | .newLabel => { d with labels := d.labels.push none }
  | .mark label => { d with labels := d.labels.setIfInBounds label (some d.emitted.size) }
  | .emit i => { d with emitted := d.emitted.push i }

/-- Follows directives in order. -/
def run (d : Draft) (directives : List Directive) : Draft := directives.foldl step d

/-- Where a label stands. -/
def place? (d : Draft) (label : Nat) : Option Nat := (d.labels[label]?).join

/-- An instruction with its label replaced. -/
def link (d : Draft) (i : Instruction) : Except BuildError Instruction :=
  match i.target? with
  | none => .ok i
  | some label =>
    match d.place? label with
    | none => .error (.unboundLabel label)
    | some n => .ok (i.mapTarget fun _ => n)

/-- The program, with labels replaced by instruction indices. -/
def finish (d : Draft) : Except BuildError (List Instruction) :=
  d.emitted.toList.mapM d.link

end Draft

/-! ## Operands by name -/

/-- A directive whose pool operand is a name. -/
inductive Item
  | plain (d : Directive)
  | constString (s : String)
  | constClass (name : String)
  | new (name : String)
  | instanceOf (name : String)
  | field (access : FieldAccess) (owner name : String)
  | invoke (kind : CallKind) (owner name descriptor : String)
  deriving DecidableEq, Repr

namespace Item

/-- An operand-free instruction. -/
def simple (op : Simple) : Item := plain (.emit (.simple op))

/-- An instruction that needs no pool. -/
def emit (i : Instruction) : Item := plain (.emit i)

def newLabel : Item := plain .newLabel

def mark (label : Nat) : Item := plain (.mark label)

def jump (c : Condition) (label : Nat) : Item := plain (.emit (.jump c label))

def loadLocal (slot : UInt16) : Item := plain (.emit (.loadLocal slot))

def constInt (v : Int32) : Item := plain (.emit (.constInt v))

/-- Interns the operand of an item. -/
def resolve (pool : Pool) : Item → Directive × Pool
  | plain d => (d, pool)
  | constString s =>
    let (i, pool) := pool.addString s
    (.emit (.constString i), pool)
  | constClass name =>
    let (i, pool) := pool.addClass name
    (.emit (.constClass i), pool)
  | new name =>
    let (i, pool) := pool.addClass name
    (.emit (.new i), pool)
  | instanceOf name =>
    let (i, pool) := pool.addClass name
    (.emit (.instanceOf i), pool)
  | field access owner name =>
    let (i, pool) := pool.addField owner name
    (.emit (.field access i), pool)
  | invoke kind owner name descriptor =>
    let (i, pool) := pool.addMethod owner name descriptor
    (.emit (.invoke kind i), pool)

/-- Interns the operands of a program, in order. -/
def resolveAll (pool : Pool) : List Item → List Directive × Pool
  | [] => ([], pool)
  | item :: rest =>
    let (d, pool) := item.resolve pool
    let (ds, pool) := resolveAll pool rest
    (d :: ds, pool)

/-- The draft of a program, and the pool with its operands. -/
def draft (pool : Pool) (items : List Item) : Draft × Pool :=
  let (directives, pool) := resolveAll pool items
  (Draft.run {} directives, pool)

/-- Assembles a program. -/
def assemble (pool : Pool) (items : List Item) : Except BuildError (List Instruction × Pool) :=
  let (d, pool) := draft pool items
  d.finish.map fun code => (code, pool)

end Item

/-! ## Classes -/

/-- The local slot that an instruction touches. -/
def Instruction.slot? : Instruction → Option UInt16
  | .loadLocal n | .storeLocal n => some n
  | _ => none

/-- Slots needed for `params` leading locals and every local that a body touches. -/
def Code.slotsNeeded (params : Nat) (code : List Instruction) : Nat :=
  (code.filterMap fun i => i.slot?.map fun n => n.toNat + 1).foldl max params

/-- A class under construction, and the first error met. -/
structure ClassDraft where
  file : ClassFile
  error? : Option BuildError := none
  deriving Repr, Inhabited

namespace ClassDraft

/-- A public root class. -/
def start (name : String) : ClassDraft := { file := { name := name } }

/-- Assembles a method and adds it. The descriptor is looked at before the body. -/
def method (d : ClassDraft) (name descriptor : String) (access : Access) (body : List Item) :
    ClassDraft :=
  match d.error? with
  | some _ => d
  | none =>
    match MethodDesc.parse descriptor with
    | .error e => { d with error? := some (.invalidDescriptor e) }
    | .ok signature =>
      match Item.assemble d.file.constants body with
      | .error e => { d with error? := some e }
      | .ok (code, pool) =>
        let params := signature.arity + (!access.has .static).toNat
        let m : MethodDef :=
          ⟨name, descriptor, access, [], UInt16.ofNat (Code.slotsNeeded params code),
            Code.encode code⟩
        { d with file := { d.file with constants := pool, methods := d.file.methods ++ [m] } }

/-- The body of a constructor that only constructs the superclass. -/
def defaultConstructorBody : Option String → List Item
  | none => [.simple .retVoid]
  | some super =>
    [.loadLocal 0, .invoke .special super constructorName "()V", .simple .retVoid]

/-- Adds the public constructor without parameters. -/
def defaultConstructor (d : ClassDraft) : ClassDraft :=
  d.method constructorName "()V" Modifier.visible.bit (defaultConstructorBody d.file.superName)

/-- Adds a method whose body lives elsewhere. It is added even after an error. -/
def nativeMethod (d : ClassDraft) (name descriptor : String) (access : Access) : ClassDraft :=
  match MethodDesc.parse descriptor with
  | .error e => { d with error? := some (d.error?.getD (.invalidDescriptor e)) }
  | .ok _ =>
    let m : MethodDef := ⟨name, descriptor, access ||| Modifier.native.bit, [], 0, []⟩
    { d with file := { d.file with methods := d.file.methods ++ [m] } }

/-- Adds declared exceptions to the method added last. -/
def throws (d : ClassDraft) (exceptions : List String) : ClassDraft :=
  match d.file.methods.getLast? with
  | none => d
  | some m =>
    let m := { m with exceptions := m.exceptions ++ exceptions }
    { d with file := { d.file with methods := d.file.methods.dropLast ++ [m] } }

/-- The class, or the first error. -/
def build (d : ClassDraft) : Except BuildError ClassFile :=
  match d.error? with
  | some e => .error e
  | none => .ok d.file

end ClassDraft

end Interpose
