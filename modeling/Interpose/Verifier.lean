import Interpose.ClassFile.Basic
/-!
# Verification

The checks a class passes before it may be executed: descriptors are well formed, bodies are there
when they should be and decode, references stay inside the pool and the locals, and the operand
stack has one depth at each instruction, on every path, and never too few values.

The depth check follows paths. It keeps the depth of each instruction it has entered and a stack of
entries still to make; entering an instruction again at the same depth is nothing new. Since each
instruction is entered for the first time at most once and adds at most two entries, the check ends.
Entries are taken last first, and behind a conditional jump the way straight on is taken before the
jump. That order decides which of several faults is reported; it has no say in whether there is one.
-/

namespace Interpose

/-- Why a class is refused. Methods are named with their class and descriptor; `place` is the index
of an instruction. -/
inductive VerifyError
  | invalidDescriptor (member descriptor : String)
  | decode (method : String) (cause : DecodeError)
  /-- A method with neither a body nor a reason to lack one. -/
  | missingCode (method : String)
  /-- A native or abstract method with a body. -/
  | unexpectedCode (method : String)
  | tooFewLocals (method : String) (declared : UInt16) (required : Nat)
  /-- The pool's table of the given kind has no such entry. -/
  | invalidConstantRef (method kind : String) (index : UInt32) (place : Nat)
  | invalidLocalRef (method : String) (index max : UInt16) (place : Nat)
  | stackUnderflow (method : String) (place : Nat)
  /-- Two paths reach an instruction at different depths. -/
  | stackMismatch (method : String) (place first second : Nat)
  /-- A return with a value from a `void` method, or the reverse. -/
  | returnMismatch (method : String) (place : Nat)
  | fallOffEnd (method : String)
  deriving DecidableEq, Repr

namespace VerifyError

/-- The report of a verification error. -/
def message : VerifyError → String
  | invalidDescriptor member descriptor => s!"Invalid descriptor '{descriptor}' on {member}"
  | decode method cause => s!"Undecodable code in {method}: {cause.message}"
  | missingCode method => s!"Method {method} has no code"
  | unexpectedCode method => s!"Native or abstract method {method} has code"
  | tooFewLocals method declared required =>
    s!"Method {method} declares {declared.toNat} locals but needs at least {required}"
  | invalidConstantRef method kind index place =>
    s!"Invalid {kind} reference {index.toNat} at instruction {place} in {method}"
  | invalidLocalRef method index max place =>
    s!"Invalid local {index.toNat} (max {max.toNat}) at instruction {place} in {method}"
  | stackUnderflow method place => s!"Stack underflow at instruction {place} in {method}"
  | stackMismatch method place first second =>
    s!"Inconsistent stack depth at instruction {place} in {method} ({first} vs {second})"
  | returnMismatch method place =>
    s!"Return at instruction {place} does not match the return type of {method}"
  | fallOffEnd method => s!"Execution falls off end of {method}"

end VerifyError

namespace Verifier

/-! ## Operands -/

/-- Checks the operand of the instruction at an index of a method. -/
def checkOperand (method : String) (pool : Pool) (maxLocals : UInt16) (place : Nat) :
    Instruction → Except VerifyError Unit
  | .constString i =>
    if (pool.string? i).isNone then .error (.invalidConstantRef method "string" i place) else .ok ()
  | .constClass i | .new i | .instanceOf i =>
    if (pool.class? i).isNone then .error (.invalidConstantRef method "class" i place) else .ok ()
  | .field _ i =>
    if (pool.field? i).isNone then .error (.invalidConstantRef method "field" i place) else .ok ()
  | .invoke _ i =>
    match pool.method? i with
    | none => .error (.invalidConstantRef method "method" i place)
    | some m =>
      match MethodDesc.parse m.descriptor with
      | .ok _ => .ok ()
      | .error _ => .error (.invalidDescriptor (m.owner ++ "." ++ m.name) m.descriptor)
  | .loadLocal n | .storeLocal n =>
    if maxLocals ≤ n then .error (.invalidLocalRef method n maxLocals place) else .ok ()
  | _ => .ok ()

/-- Checks every operand of a body, from an index on. -/
def checkOperands (method : String) (pool : Pool) (maxLocals : UInt16) (place : Nat) :
    List Instruction → Except VerifyError Unit
  | [] => .ok ()
  | i :: rest =>
    match checkOperand method pool maxLocals place i with
    | .error e => .error e
    | .ok () => checkOperands method pool maxLocals (place + 1) rest

/-! ## Stack depths -/

/-- Whether leaving the method by this instruction contradicts its return type. -/
def returnMismatch (returnsVoid : Bool) : Instruction → Bool
  | .simple .ret => returnsVoid
  | .simple .retVoid => !returnsVoid
  | _ => false

/-- Where control may go from the instruction at an index: a jump's target, and the next instruction
unless the instruction never falls through. The one to follow first stands last. -/
def successors (place : Nat) (i : Instruction) : List Nat :=
  i.target?.toList ++ if i.opcode.isTerminator then [] else [place + 1]

/-- Enters an instruction for the first time at a given depth: checks that it has its operands and
may return, and answers the depth behind it. -/
def depthAfter (method : String) (pool : Pool) (returnsVoid : Bool) (place depth : Nat)
    (i : Instruction) : Except VerifyError Nat :=
  let effect := (i.stackEffect? pool).getD ⟨0, 0⟩
  if depth < effect.pops then .error (.stackUnderflow method place)
  else if returnMismatch returnsVoid i then .error (.returnMismatch method place)
  else .ok (depth - effect.pops + effect.pushes)

/-- Follows paths. `depths` holds the depth of each instruction entered so far, and `pending` the
entries to make, the next one first. -/
def followPaths (method : String) (pool : Pool) (returnsVoid : Bool) (code : Array Instruction)
    (depths : Array (Option Nat)) (pending : List (Nat × Nat)) : Except VerifyError Unit :=
  match pending with
  | [] => .ok ()
  | (place, depth) :: pending =>
    match code[place]?, _hd : depths[place]? with
    | some i, some none =>
      match depthAfter method pool returnsVoid place depth i with
      | .error e => .error e
      | .ok next =>
        followPaths method pool returnsVoid code (depths.setIfInBounds place (some depth))
          ((successors place i).reverse.map (fun n => (n, next)) ++ pending)
    | some _, some (some first) =>
      if first = depth then followPaths method pool returnsVoid code depths pending
      else .error (.stackMismatch method place first depth)
    | _, _ => .error (.fallOffEnd method)
termination_by 2 * depths.count none + pending.length
decreasing_by
  · obtain ⟨hlt, hnone⟩ := Array.getElem?_eq_some_iff.1 _hd
    have hcount : 0 < depths.count none := Array.count_pos_iff.2 (hnone ▸ Array.getElem_mem hlt)
    have hset : (depths.setIfInBounds place (some depth)).count none = depths.count none - 1 := by
      rw [Array.setIfInBounds_def, dif_pos hlt, Array.count_set, hnone]
      simp
    have hlen : (successors place i).length ≤ 2 := by
      unfold successors
      cases i.target? <;> cases i.opcode.isTerminator <;> simp
    simp only [List.length_append, List.length_map, List.length_reverse, List.length_cons, hset]
    omega
  · simp only [List.length_cons]; omega

/-- Checks the stack depths of a body, entered with an empty stack. -/
def checkStack (method : String) (pool : Pool) (returnsVoid : Bool) (code : List Instruction) :
    Except VerifyError Unit :=
  followPaths method pool returnsVoid code.toArray (Array.replicate code.length none) [(0, 0)]

/-! ## Methods and classes -/

/-- The name under which a method is reported. -/
def qualifiedName (className : String) (m : MethodDef) : String :=
  className ++ "." ++ m.name ++ m.descriptor

/-- Checks the body of a method whose signature is known. -/
def checkBody (method : String) (pool : Pool) (m : MethodDef) (signature : MethodDesc) :
    Except VerifyError Unit :=
  let required := signature.arity + (!m.isStatic).toNat
  if m.maxLocals.toNat < required then .error (.tooFewLocals method m.maxLocals required)
  else
    match Code.decode m.code with
    | .error e => .error (.decode method e)
    | .ok code =>
      match checkOperands method pool m.maxLocals 0 code with
      | .error e => .error e
      | .ok () => checkStack method pool signature.ret.isVoid code

/-- Checks a method of a class with the given name and pool. -/
def checkMethod (className : String) (pool : Pool) (m : MethodDef) : Except VerifyError Unit :=
  let method := qualifiedName className m
  match m.signature with
  | .error _ => .error (.invalidDescriptor method m.descriptor)
  | .ok signature =>
    if m.isNative || m.isAbstract then
      if m.code.isEmpty then .ok () else .error (.unexpectedCode method)
    else if m.code.isEmpty then .error (.missingCode method)
    else checkBody method pool m signature

/-- Checks a declared field: its type is a value type. -/
def checkField (className : String) (f : FieldDef) : Except VerifyError Unit :=
  match TypeDesc.parse f.descriptor with
  | .ok t =>
    if t.isVoid then .error (.invalidDescriptor (className ++ "." ++ f.name) f.descriptor)
    else .ok ()
  | .error _ => .error (.invalidDescriptor (className ++ "." ++ f.name) f.descriptor)

end Verifier

/-- Checks every member of a class, fields first. -/
def ClassFile.verify (c : ClassFile) : Except VerifyError Unit := do
  c.fields.forM (Verifier.checkField c.name)
  c.methods.forM (Verifier.checkMethod c.name c.constants)

end Interpose
