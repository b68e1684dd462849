import Interpose.Machine.Basic
/-!
# Frames

One activation of a method: where it stands, its locals, and its operand stack, top first. The
computations of a frame can do what the machine can do. What a frame holds is lost when it fails,
and nobody can tell.
-/

namespace Interpose

/-- The activation of a method. -/
structure Frame where
  /-- The class that declares the method. -/
  cls : ClassRef
  /-- The index of the next instruction. -/
  pc : Nat := 0
  locals : List Value
  /-- The operands, the top of the stack first. -/
  stack : List Value := []
  deriving DecidableEq, Repr, Inhabited

namespace Frame

/-- A frame before its first instruction: arguments come first among the locals. -/
def enter (cls : ClassRef) (maxLocals : Nat) (args : List Value) : Frame :=
  { cls := cls, locals := args ++ List.replicate (maxLocals - args.length) .null }

end Frame

/-- A computation inside a frame. -/
abbrev Act := StateT Frame Run

namespace Act

variable {α : Type}

/-- Fails. -/
def fail (e : VmError) : Act α := StateT.lift (Run.fail e)

/-- The machine that the frame runs on. -/
def machine : Act Machine := StateT.lift (get : Run Machine)

/-- Puts a value on top of the stack. -/
def push (v : Value) : Act Unit := modify fun f => { f with stack := v :: f.stack }

/-- Takes the value on top of the stack. -/
def pop : Act Value := do
  let f ← get
  match f.stack with
  | [] => fail .stackUnderflow
  | v :: rest =>
    set { f with stack := rest }
    return v

/-- The value on top of the stack. -/
def peek : Act Value := do
  match (← get).stack with
  | [] => fail .stackUnderflow
  | v :: _ => return v

/-- Takes the topmost values, all or none, in the order in which they were pushed. -/
def popMany (count : Nat) : Act (List Value) := do
  let f ← get
  if f.stack.length < count then fail .stackUnderflow
  else
    set { f with stack := f.stack.drop count }
    return (f.stack.take count).reverse

/-- Goes on at another instruction. -/
def jump (target : Nat) : Act Unit := modify fun f => { f with pc := target }

/-- Reads a local. -/
def readLocal (slot : UInt16) : Act Value := do
  match (← get).locals[slot.toNat]? with
  | some v => return v
  | none => fail (.type (.localRange slot.toNat))

/-- Writes a local. -/
def writeLocal (slot : UInt16) (v : Value) : Act Unit := do
  let f ← get
  if slot.toNat < f.locals.length then set { f with locals := f.locals.set slot.toNat v }
  else fail (.type (.localRange slot.toNat))

/-- The class that declares the method. -/
def currentClass : Act LoadedClass := do
  let f ← get
  let m ← machine
  return m.cls f.cls

/-- An entry of the class's pool. -/
def constant (table : PoolTable) (index : UInt32) (find : Pool → UInt32 → Option α) : Act α := do
  match find (← currentClass).constants index with
  | some a => return a
  | none => fail (.type (.badConstant table index.toNat))

end Act

end Interpose
