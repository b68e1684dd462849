import Interpose.Dispatch.Handler
import Interpose.Machine.Frame
import Interpose.Text.Upper
import Interpose.Value.Arithmetic
/-!
# Instructions

What each instruction does to its frame and the machine. The order of effects is part of it: which
operand is popped before which class is loaded, and which of two wrong operands is reported.
Integer and double operators look at the right operand first.

Conditional jumps on a truth value take nothing but a boolean; `Value.isTruthy` plays no part here.
-/

namespace Interpose

namespace Act

variable (execute : Execute)

/-! ### Operators -/

/-- An integer operator: on two ints an int, otherwise a long. -/
def integerOp (op : IntOp) : Act Unit := do
  if op.divides then
    if (← Run.asLong (← peek)) = 0 then
      fail (.thrown (.text "ArithmeticException: / by zero"))
  let b ← pop
  let a ← pop
  match a, b with
  | .int x, .int y => push (.int (op.int x y))
  | a, b =>
    let x ← Run.asLong a
    let y ← Run.asLong b
    push (.long (op.long x y))

/-- The change of sign of an integer. -/
def negate : Act Unit := do
  match ← pop with
  | .long n => push (.long (-n))
  | v => push (.int (-(← Run.asInt v)))

/-- An operator on doubles. -/
def doubleOp (op : FloatOp) : Act Unit := do
  let b ← Run.asDouble (← pop)
  let a ← Run.asDouble (← pop)
  push (.double (op.double a b))

/-- A comparison of integers. -/
def compare (rel : Relation) : Act Unit := do
  let b ← Run.asLong (← pop)
  let a ← Run.asLong (← pop)
  push (.bool (rel.holds a b))

/-- A comparison of values. -/
def compareValues (expected : Bool) : Act Unit := do
  let b ← pop
  let a ← pop
  push (.bool (a.equal b == expected))

/-- The texts of two values, one after the other. -/
def concat : Act Unit := do
  let b ← pop
  let a ← pop
  push (.text ((← Run.display a) ++ (← Run.display b)))

/-! ### Arrays -/

/-- A new array of nulls. -/
def newArray : Act Unit := do
  let n ← Run.asInt (← pop)
  if n < 0 then fail (.thrown (.text s!"NegativeArraySize: {n.toInt}"))
  else push (← Run.allocateArray (Array.replicate n.toInt.toNat .null))

def arrayLoad : Act Unit := do
  let i ← Run.asInt (← pop)
  let a ← Run.asArray (← pop)
  push (← Run.getElement a i)

def arrayStore : Act Unit := do
  let v ← pop
  let i ← Run.asInt (← pop)
  let a ← Run.asArray (← pop)
  Run.setElement a i v

def arrayLength : Act Unit := do
  let a ← Run.asArray (← pop)
  let m ← machine
  push (.int (Int32.ofNat (m.heap.elements a).size))

/-! ### Dispatch -/

/-- The handler of the class that declares the method. -/
def handler (handlers : Handlers) : Act Handler := do
  let k ← currentClass
  match k.handler? with
  | some h => return handlers h
  | none => fail (.dispatch (.noHandler k.name))

/-- A part of a call record that is not what it should be. -/
def invalidRecord {α : Type} (part : RecordPart) : Act α :=
  fail (.dispatch (.invalidCallRecord part))

/-- Reads a part of a call record. -/
def recordPart {α : Type} (part : RecordPart) : Option α → Act α
  | some a => return a
  | none => invalidRecord part

/-- The class, if the value is a class. -/
def cls? : Value → Option ClassRef
  | .cls c => some c
  | _ => none

/-- The array, if the value is an array. -/
def array? : Value → Option ArrayRef
  | .array a => some a
  | _ => none

/-- The elements of an array on the heap. -/
def elements (a : ArrayRef) : Act (List Value) := do
  let m ← machine
  return (m.heap.elements a).toList

/-- Reads the call record that a stub has put on the stack: class, method name, receiver, parameter
type names and arguments. -/
def popRecord : Act CallRecord := do
  let args ← pop
  let types ← pop
  let receiver ← pop
  let name ← pop
  let owner ← pop
  let owner ← recordPart .classToken (cls? owner)
  let name ← recordPart .methodName name.text?
  let types ← elements (← recordPart .paramTypes (array? types))
  let types ← recordPart .paramTypeName (types.mapM Value.text?)
  let args ← elements (← recordPart .arguments (array? args))
  return ⟨owner, name, receiver, types, args⟩

/-- Hands an intercepted call to the handler. -/
def methodInvoked (handlers : Handlers) : Act Unit := do
  let call ← popRecord
  let h ← handler handlers
  push (← (h.methodInvoked call).run execute)

/-- Tells the handler that a static initializer is due. -/
def classInitializing (handlers : Handlers) : Act Unit := do
  let c ← Run.asClass (← pop)
  let h ← handler handlers
  let _ ← (h.classInitializing c).run execute

/-- Asks the handler whether declared bodies are to run. -/
def shouldCallDirectly (handlers : Handlers) : Act Unit := do
  let receiver ← pop
  let h ← handler handlers
  let m ← machine
  push (.bool (h.callsDirectly m receiver))

/-! ### Classes and fields -/

/-- The class that an entry of the pool names. -/
def classConstant (index : UInt32) : Act ClassRef := do
  let name ← constant .cls index Pool.class?
  Run.resolveClass (← get).cls name

/-- The slot of the instance field that an entry of the pool names. -/
def fieldConstant (index : UInt32) : Act Nat := do
  let f ← constant .field index Pool.field?
  let c ← Run.resolveClass (← get).cls f.owner
  Run.resolveField c f.owner f.name

/-- The static field that an entry of the pool names, its class initialized. -/
def staticConstant (index : UInt32) : Act (ClassRef × Nat) := do
  let f ← constant .field index Pool.field?
  let c ← Run.resolveClass (← get).cls f.owner
  Run.initializeClass execute c
  Run.resolveStatic c f.owner f.name

/-- The report of a static slot that is not there. -/
def staticMissing (c : ClassRef) (slot : Nat) : Act MissingField := do
  let m ← machine
  return .staticSlot (m.cls c).name slot

def accessField (index : UInt32) : FieldAccess → Act Unit
  | .get => do
    let slot ← fieldConstant index
    let o ← Run.asObject (← pop)
    push (← Run.getSlot o slot)
  | .put => do
    let slot ← fieldConstant index
    let v ← pop
    let o ← Run.asObject (← pop)
    Run.setSlot o slot v
  | .getStatic => do
    let (c, slot) ← staticConstant execute index
    push (← Run.getStaticSlot (← staticMissing c slot) c slot)
  | .putStatic => do
    let (c, slot) ← staticConstant execute index
    let v ← pop
    Run.setStaticSlot (← staticMissing c slot) c slot v

/-- A new object, no constructor run. -/
def newObject (index : UInt32) : Act Unit := do
  let c ← classConstant index
  Run.initializeClass execute c
  push (← Run.allocate c)

/-- Whether a value is an object of a class. The class is not even looked for if the value is no
object. -/
def instanceOf (index : UInt32) : Act Unit := do
  match ← pop with
  | .object o =>
    let c ← classConstant index
    let m ← machine
    push (.bool (m.classes.isSubclass (m.classOf o) c))
  | _ => push (.bool false)

/-- The class of an object. -/
def classOf : Act Unit := do
  let o ← Run.asObject (← pop)
  let m ← machine
  push (.cls (m.classOf o))

/-! ### Calls -/

/-- Takes the receiver, if there is one, and the arguments. -/
def popCall (kind : CallKind) (descriptor : String) : Act (List Value) := do
  match MethodDesc.parse descriptor with
  | .error e => fail (.type (.badDescriptor e))
  | .ok signature => popMany (signature.arity + kind.hasReceiver.toNat)

/-- Whether a descriptor ends as that of a method without a result does. -/
def endsInVoid (descriptor : String) : Bool :=
  match descriptor.toList.reverse with
  | 'V' :: ')' :: _ => true
  | _ => false

/-- The method that a call means, once its operands have been taken. A constructor is looked for in
the class itself only. -/
def callTarget (kind : CallKind) (ref : MethodRef) (args : List Value) : Act (ClassRef × Nat) := do
  match kind with
  | .virtual =>
    let o ← Run.asObject (args.headD .null)
    Run.resolveVirtual o ref.name ref.descriptor
  | .special =>
    let _ ← Run.asObject (args.headD .null)
    let c ← Run.resolveClass (← get).cls ref.owner
    if ref.name = constructorName then
      return (c, ← Run.declaredMethod c ref.owner ref.name ref.descriptor)
    else Run.resolveMethod c ref.owner ref.name ref.descriptor
  | .static =>
    let c ← Run.resolveClass (← get).cls ref.owner
    Run.initializeClass execute c
    Run.resolveMethod c ref.owner ref.name ref.descriptor

/-- Calls a method and keeps its result, unless the descriptor says there is none. -/
def invoke (kind : CallKind) (index : UInt32) : Act Unit := do
  let ref ← constant .method index Pool.method?
  let args ← popCall kind ref.descriptor
  let (owner, i) ← callTarget execute kind ref args
  let result ← execute owner i args
  if !endsInVoid ref.descriptor then push result

/-! ### Jumps -/

/-- Whether a jump is taken. -/
def taken : Condition → Act Bool
  | .always => return true
  | .ifFalse => return !(← Run.asBool (← pop))
  | .ifTrue => do Run.asBool (← pop)
  | .ifNull => return (← pop).isNull
  | .ifNotNull => return !(← pop).isNull

/-! ### All together -/

/-- Does what an operand-free instruction says. A return answers with the result. -/
def simple (handlers : Handlers) : Simple → Act (Option Value)
  | .nop => return none
  | .pop => do let _ ← pop; return none
  | .dup => do push (← peek); return none
  | .swap => do
    let b ← pop
    let a ← pop
    push b
    push a
    return none
  | .constNull => do push .null; return none
  | .constTrue => do push (.bool true); return none
  | .constFalse => do push (.bool false); return none
  | .arith op => do integerOp op; return none
  | .negate => do negate; return none
  | .floatArith op => do doubleOp op; return none
  | .floatNegate => do push (.double (← Run.asDouble (← pop)).negate); return none
  | .compare rel => do compare rel; return none
  | .equal => do compareValues true; return none
  | .notEqual => do compareValues false; return none
  | .logicalNot => do push (.bool !(← Run.asBool (← pop))); return none
  | .concat => do concat; return none
  | .textLength => do push (.int (Int32.ofNat (← Run.asText (← pop)).length)); return none
  | .upper => do push (.text (Text.upper (← Run.asText (← pop)))); return none
  | .toText => do push (.text (← Run.display (← pop))); return none
  | .ret => return some (← pop)
  | .retVoid => return some .null
  | .classOf => do classOf; return none
  | .newArray => do newArray; return none
  | .arrayLoad => do arrayLoad; return none
  | .arrayStore => do arrayStore; return none
  | .arrayLength => do arrayLength; return none
  | .raise => do fail (.thrown (← pop))
  | .shouldCallDirectly => do shouldCallDirectly handlers; return none
  | .methodInvoked => do methodInvoked execute handlers; return none
  | .classInitializing => do classInitializing execute handlers; return none

/-- Does what an instruction says. A return answers with the result. -/
def step (handlers : Handlers) : Instruction → Act (Option Value)
  | .simple op => simple execute handlers op
  | .constInt n => do push (.int n); return none
  | .constLong n => do push (.long n); return none
  | .constDouble x => do push (.double x); return none
  | .constString i => do push (.text (← constant .string i Pool.string?)); return none
  | .constClass i => do push (.cls (← classConstant i)); return none
  | .loadLocal slot => do push (← readLocal slot); return none
  | .storeLocal slot => do writeLocal slot (← pop); return none
  | .jump condition target => do
    if ← taken condition then jump target
    return none
  | .invoke kind i => do invoke execute kind i; return none
  | .new i => do newObject execute i; return none
  | .field access i => do accessField execute i access; return none
  | .instanceOf i => do instanceOf i; return none
  | .unbox tag => do
    match TypeDesc.ofTag? tag with
    | none => fail (.type (.badTag tag.toNat))
    | some t =>
      push (← Run.unbox t (← pop))
      return none

end Act

end Interpose
