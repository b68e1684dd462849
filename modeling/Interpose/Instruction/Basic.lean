import Interpose.Descriptor.Parser
import Interpose.Opcode
import Interpose.Pool
/-!
# Instructions

An instruction is an opcode with its operand. What a jump's operand says depends on where the
instruction stands: in a method body it is a signed displacement in bytes, in the program text that
is assembled and edited it is a *label*, the index of the target instruction. The type is therefore
parametric in the target, and moving between the two readings is `mapTarget`.

Indices into the pool are kept as they are: an instruction may refer to an entry that is not there,
and it is the verifier that says so.
-/

namespace Interpose

/-- An instruction whose jumps name a `Target`. -/
inductive InstructionOf (Target : Type)
  | simple (op : Simple)
  | constInt (value : Int32)
  | constDouble (bits : UInt64)
  | constString (index : UInt32)
  | constLong (value : Int64)
  | constClass (index : UInt32)
  | loadLocal (slot : UInt16)
  | storeLocal (slot : UInt16)
  | jump (condition : Condition) (target : Target)
  | invoke (kind : CallKind) (index : UInt32)
  | new (index : UInt32)
  | field (access : FieldAccess) (index : UInt32)
  | instanceOf (index : UInt32)
  | unbox (tag : UInt8)
  deriving DecidableEq, Repr

/-- An instruction whose jumps name the index of an instruction. -/
abbrev Instruction := InstructionOf Nat

namespace InstructionOf

variable {T U : Type}

instance : Inhabited (InstructionOf T) := ⟨simple .nop⟩

/-- The instruction without its operand. -/
def opcode : InstructionOf T → Opcode
  | simple op => .simple op
  | constInt _ => .constInt
  | constDouble _ => .constDouble
  | constString _ => .constString
  | constLong _ => .constLong
  | constClass _ => .constClass
  | loadLocal _ => .loadLocal
  | storeLocal _ => .storeLocal
  | jump c _ => .jump c
  | invoke k _ => .invoke k
  | new _ => .new
  | field a _ => .field a
  | instanceOf _ => .instanceOf
  | unbox _ => .unbox

/-- Bytes taken by the instruction in a method body. -/
def size (i : InstructionOf T) : Nat := 1 + i.opcode.operandSize

/-- Where the instruction may jump to. -/
def target? : InstructionOf T → Option T
  | jump _ t => some t
  | _ => none

/-- Renames the target of a jump; other instructions stay. -/
def mapTarget (f : T → U) : InstructionOf T → InstructionOf U
  | simple op => simple op
  | constInt v => constInt v
  | constDouble bits => constDouble bits
  | constString i => constString i
  | constLong v => constLong v
  | constClass i => constClass i
  | loadLocal n => loadLocal n
  | storeLocal n => storeLocal n
  | jump c t => jump c (f t)
  | invoke k i => invoke k i
  | new i => new i
  | field a i => field a i
  | instanceOf i => instanceOf i
  | unbox tag => unbox tag

@[simp] theorem opcode_mapTarget (f : T → U) (i : InstructionOf T) :
    (i.mapTarget f).opcode = i.opcode := by
  cases i <;> rfl

@[simp] theorem size_mapTarget (f : T → U) (i : InstructionOf T) :
    (i.mapTarget f).size = i.size := by
  simp [size]

end InstructionOf

/-! ## Effect on the operand stack -/

/-- How many values an instruction pops, and how many it pushes after that. -/
structure StackEffect where
  pops : Nat
  pushes : Nat
  deriving DecidableEq, Repr, Inhabited

/-- The effect of an operand-free instruction. -/
def Simple.stackEffect : Simple → StackEffect
  | .nop | .retVoid => ⟨0, 0⟩
  | .pop | .ret | .raise | .classInitializing => ⟨1, 0⟩
  | .dup => ⟨1, 2⟩
  | .swap => ⟨2, 2⟩
  | .constNull | .constTrue | .constFalse => ⟨0, 1⟩
  | .arith _ | .floatArith _ | .compare _ | .equal | .notEqual | .concat | .arrayLoad => ⟨2, 1⟩
  | .negate | .floatNegate | .logicalNot | .textLength | .upper | .toText | .classOf | .newArray
  | .arrayLength | .shouldCallDirectly => ⟨1, 1⟩
  | .arrayStore => ⟨3, 0⟩
  | .methodInvoked => ⟨5, 1⟩

/-- Whether a call of this kind pops a receiver below its arguments. -/
def CallKind.hasReceiver : CallKind → Bool
  | .static => false
  | .virtual | .special => true

/-- The effect of a call: the receiver and the arguments go, and a result comes unless the method
returns `void`. -/
def MethodDesc.stackEffect (m : MethodDesc) (kind : CallKind) : StackEffect :=
  ⟨m.arity + kind.hasReceiver.toNat, (!m.ret.isVoid).toNat⟩

/-- The effect of an instruction. A call needs the pool to count its arguments, and has no effect to
speak of when its reference is missing or its descriptor is malformed. -/
def Instruction.stackEffect? (pool : Pool) : Instruction → Option StackEffect
  | .simple op => some op.stackEffect
  | .constInt _ | .constDouble _ | .constString _ | .constLong _ | .constClass _
  | .loadLocal _ | .new _ | .field .getStatic _ => some ⟨0, 1⟩
  | .storeLocal _ | .field .putStatic _ => some ⟨1, 0⟩
  | .jump .always _ => some ⟨0, 0⟩
  | .jump _ _ => some ⟨1, 0⟩
  | .invoke kind index =>
    match pool.method? index with
    | none => none
    | some m =>
      match MethodDesc.parse m.descriptor with
      | .ok signature => some (signature.stackEffect kind)
      | .error _ => none
  | .field .get _ | .instanceOf _ | .unbox _ => some ⟨1, 1⟩
  | .field .put _ => some ⟨2, 0⟩

end Interpose
