import Interpose.Instrument.Stub
/-!
# Splitting constructors

A constructor is cut behind the call that constructs its superclass. What stands before the cut
stays under the constructor's name, followed by a stub; what stands behind it becomes a method of
its own. The superclass's arguments are thus evaluated once, and the rest can be run, or left out,
on an object that is already constructed.

To find the cut, the code is followed from its start on a stack of marks, which tell an unshared
receiver from any other value. The way to the call must be straight, must write no local, and must
leave nothing but the receiver and the arguments on the stack: the rest runs in a fresh frame, and
would see neither a written local nor a value left behind.
-/

namespace Interpose.SuperCall

/-- What is known of a stack entry. -/
inductive Mark
  /-- Pushed by loading local 0. -/
  | receiver
  | other
  deriving DecidableEq, Repr

/-- The marks after an instruction that is neither a jump nor the call looked for, top first. -/
def advance (pool : Pool) (place : Nat) (stack : List Mark) (i : Instruction) :
    Except String (List Mark) :=
  match i with
  | .loadLocal 0 => .ok (.receiver :: stack)
  | .storeLocal slot =>
    .error s!"STORE_LOCAL {slot.toNat} at {place} precedes the superclass constructor call"
  | .simple .dup =>
    match stack with
    | [] => .error s!"stack underflow at {place}"
    | _ :: rest => .ok (.other :: .other :: rest)
  | .simple .swap =>
    match stack with
    | a :: b :: rest => .ok (b :: a :: rest)
    | _ => .error s!"stack underflow at {place}"
  | i =>
    match i.stackEffect? pool with
    | none => .error s!"invalid constant reference at {place}"
    | some effect =>
      if stack.length < effect.pops then .error s!"stack underflow at {place}"
      else .ok (List.replicate effect.pushes .other ++ stack.drop effect.pops)

/-- Checks the marks at the call: the arguments, below them the receiver, and below that nothing. -/
def checkCall (place : Nat) (stack : List Mark) (m : MethodRef) : Except String Unit :=
  match MethodDesc.parse m.descriptor with
  | .error e => .error e.message
  | .ok signature =>
    if stack.length < signature.arity + 1 then .error s!"stack underflow at {place}"
    else if stack[signature.arity]? ≠ some .receiver then
      .error s!"receiver of the call at {place} is not LOAD_LOCAL 0"
    else if stack.length ≠ signature.arity + 1 then
      .error s!"values left on the stack across the call at {place}"
    else .ok ()

/-- Whether a method reference constructs the superclass, or delegates to another constructor of the
class itself. -/
def constructs (className superName : String) (m : MethodRef) : Bool :=
  m.name == constructorName && (m.owner == superName || m.owner == className)

/-- Finds the call from an index on, with the marks that stand there. -/
def locateFrom (pool : Pool) (className superName : String) (place : Nat) (stack : List Mark) :
    List Instruction → Except String Nat
  | [] => .error "no superclass constructor call"
  | i :: rest =>
    let onward : Except String Nat :=
      match advance pool place stack i with
      | .error e => .error e
      | .ok stack => locateFrom pool className superName (place + 1) stack rest
    if i.target?.isSome || i.opcode.isTerminator then
      .error s!"{i.opcode.name} at {place} precedes the superclass constructor call"
    else
      match i with
      | .invoke .special index =>
        match pool.method? index with
        | none => .error s!"invalid method constant {index.toNat} at {place}"
        | some m =>
          if constructs className superName m then
            (checkCall place stack m).map fun _ => place
          else onward
      | _ => onward

/-- The index of the call that constructs the superclass. -/
def locate (pool : Pool) (className superName : String) (code : List Instruction) :
    Except String Nat :=
  locateFrom pool className superName 0 [] code

/-- Moves the labels of the code from `start` on, which is what `code` holds. A jump back before
`start` leads nowhere. -/
def rebase (start place : Nat) : List Instruction → Except String (List Instruction)
  | [] => .ok []
  | i :: rest =>
    match i.target? with
    | some label =>
      if label < start then .error s!"jump at {place} targets the constructor prefix"
      else (rebase start (place + 1) rest).map fun rest => i.mapTarget (· - start) :: rest
    | none => (rebase start (place + 1) rest).map fun rest => i :: rest

/-- The code behind the call at an index, on its own. -/
def strip (code : List Instruction) (call : Nat) : Except String (List Instruction) :=
  rebase (call + 1) (call + 1) (code.drop (call + 1))

/-- The code up to the call and the code behind it. A root class has no call, and all of its code
lies behind. -/
def cut (pool : Pool) (className : String) (superName : Option String) (code : List Instruction) :
    Except String (List Instruction × List Instruction) :=
  match superName with
  | none => .ok ([], code)
  | some superName =>
    match locate pool className superName code with
    | .error e => .error e
    | .ok call => (strip code call).map fun body => (code.take (call + 1), body)

end Interpose.SuperCall

namespace Interpose.Instrument

/-- What the stub of a constructor stands in for. -/
def constructorTarget (className : String) (m : MethodDef) (signature : MethodDesc) : StubTarget :=
  ⟨className, constructorBodyName, constructorBodyName, m.descriptor, signature, false, false⟩

/-- Splits a constructor into its renamed body and the method that takes over its name. -/
def splitConstructor (pool : Pool) (className : String) (superName : Option String)
    (m : MethodDef) : Except TransformError (MethodDef × MethodDef × Pool) := do
  let signature ← signatureOf className m
  let code ←
    match Code.decode m.code with
    | .ok code => pure code
    | .error e => throw (.code (className ++ "." ++ m.name) e)
  let (opening, body) ←
    match SuperCall.cut pool className superName code with
    | .ok parts => pure parts
    | .error reason => throw (.invariantViolation className constructorName reason)
  let target := constructorTarget className m signature
  let (entryCode, pool) ← assemble pool (opening.map .emit ++ target.items)
  let entry : MethodDef :=
    ⟨constructorName, m.descriptor,
      Access.without m.access Modifier.visibility ||| Modifier.visible.bit, m.exceptions,
      max m.maxLocals target.locals, Code.encode entryCode⟩
  let body : MethodDef := { m with name := constructorBodyName, code := Code.encode body }
  return (body, entry, pool)

end Interpose.Instrument
