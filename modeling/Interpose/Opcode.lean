import Interpose.Bytes.LittleEndian
/-!
# Opcodes

The instruction set, one byte an opcode. Opcodes that take no operand are `Simple`; the others are
named for what their operand means, because that is what the codec, the verifier and the
interpreter each branch on. Arithmetic, comparisons, branch conditions, call kinds and field
accesses are small enumerations of their own, so that code about all additions, or all jumps, is
one case.

The byte of each opcode is a table, `Opcode.byte`; reading a byte searches the opcodes for it, so
the two directions cannot disagree.
-/

namespace Interpose

/-- Integer arithmetic on two operands. -/
inductive IntOp
  | add | sub | mul | div | mod
  deriving DecidableEq, Repr

/-- Floating-point arithmetic on two operands. -/
inductive FloatOp
  | add | sub | mul | div
  deriving DecidableEq, Repr

/-- Integer comparisons. -/
inductive Relation
  | eq | ne | lt | le | gt | ge
  deriving DecidableEq, Repr

/-- When a jump is taken. All but `always` pop the value they test. -/
inductive Condition
  | always | ifFalse | ifTrue | ifNull | ifNotNull
  deriving DecidableEq, Repr

/-- How a call finds its method. -/
inductive CallKind
  | virtual | special | static
  deriving DecidableEq, Repr

/-- Reading and writing instance and static fields. -/
inductive FieldAccess
  | get | put | getStatic | putStatic
  deriving DecidableEq, Repr

/-- Opcodes without an operand. -/
inductive Simple
  | nop | pop | dup | swap
  | constNull | constTrue | constFalse
  | arith (op : IntOp)
  | negate
  | floatArith (op : FloatOp)
  | floatNegate
  | compare (rel : Relation)
  | equal | notEqual | logicalNot
  | concat | textLength | upper | toText
  | ret | retVoid
  | classOf
  | newArray | arrayLoad | arrayStore | arrayLength
  | raise
  /-- Pops the receiver or null, pushes the handler's decision to run declared bodies. -/
  | shouldCallDirectly
  /-- Pops arguments, parameter types, receiver, method name and class, pushes the handler's
  answer. -/
  | methodInvoked
  /-- Pops a class token and tells the handler that the class is being initialized. -/
  | classInitializing
  deriving DecidableEq, Repr

/-- An instruction without its operand. -/
inductive Opcode
  | simple (op : Simple)
  | constInt | constDouble | constString | constLong | constClass
  | loadLocal | storeLocal
  | jump (condition : Condition)
  | invoke (kind : CallKind)
  | new
  | field (access : FieldAccess)
  | instanceOf
  | unbox
  deriving DecidableEq, Repr

namespace Simple

/-- Every operand-free opcode, in the order of their bytes. -/
def all : List Simple :=
  [.nop, .pop, .dup, .swap, .constNull, .constTrue, .constFalse,
    .arith .add, .arith .sub, .arith .mul, .arith .div, .arith .mod, .negate,
    .floatArith .add, .floatArith .sub, .floatArith .mul, .floatArith .div, .floatNegate,
    .compare .eq, .compare .ne, .compare .lt, .compare .le, .compare .gt, .compare .ge,
    .equal, .notEqual, .logicalNot, .concat, .textLength, .upper, .toText,
    .ret, .retVoid, .classOf, .newArray, .arrayLoad, .arrayStore, .arrayLength, .raise,
    .shouldCallDirectly, .methodInvoked, .classInitializing]

/-- The byte of an operand-free opcode. -/
def byte : Simple → UInt8
  | .nop => 0x00
  | .pop => 0x01
  | .dup => 0x02
  | .swap => 0x03
  | .constNull => 0x04
  | .constTrue => 0x05
  | .constFalse => 0x06
  | .arith .add => 0x20
  | .arith .sub => 0x21
  | .arith .mul => 0x22
  | .arith .div => 0x23
  | .arith .mod => 0x24
  | .negate => 0x25
  | .floatArith .add => 0x30
  | .floatArith .sub => 0x31
  | .floatArith .mul => 0x32
  | .floatArith .div => 0x33
  | .floatNegate => 0x34
  | .compare .eq => 0x50
  | .compare .ne => 0x51
  | .compare .lt => 0x52
  | .compare .le => 0x53
  | .compare .gt => 0x54
  | .compare .ge => 0x55
  | .equal => 0x70
  | .notEqual => 0x71
  | .logicalNot => 0x74
  | .concat => 0x80
  | .textLength => 0x81
  | .upper => 0x82
  | .toText => 0x88
  | .ret => 0xA3
  | .retVoid => 0xA4
  | .classOf => 0xB6
  | .newArray => 0xC0
  | .arrayLoad => 0xC1
  | .arrayStore => 0xC2
  | .arrayLength => 0xC3
  | .raise => 0xE0
  | .shouldCallDirectly => 0xF0
  | .methodInvoked => 0xF1
  | .classInitializing => 0xF2

/-- The mnemonic of an operand-free opcode. -/
def name : Simple → String
  | .nop => "NOP"
  | .pop => "POP"
  | .dup => "DUP"
  | .swap => "SWAP"
  | .constNull => "CONST_NULL"
  | .constTrue => "CONST_TRUE"
  | .constFalse => "CONST_FALSE"
  | .arith .add => "IADD"
  | .arith .sub => "ISUB"
  | .arith .mul => "IMUL"
  | .arith .div => "IDIV"
  | .arith .mod => "IMOD"
  | .negate => "INEG"
  | .floatArith .add => "FADD"
  | .floatArith .sub => "FSUB"
  | .floatArith .mul => "FMUL"
  | .floatArith .div => "FDIV"
  | .floatNegate => "FNEG"
  | .compare .eq => "IEQ"
  | .compare .ne => "INE"
  | .compare .lt => "ILT"
  | .compare .le => "ILE"
  | .compare .gt => "IGT"
  | .compare .ge => "IGE"
  | .equal => "EQ"
  | .notEqual => "NE"
  | .logicalNot => "NOT"
  | .concat => "SCONCAT"
  | .textLength => "SLEN"
  | .upper => "SUPPER"
  | .toText => "TO_STRING"
  | .ret => "RETURN"
  | .retVoid => "RETURN_VOID"
  | .classOf => "GET_CLASS"
  | .newArray => "NEW_ARRAY"
  | .arrayLoad => "ARRAY_LOAD"
  | .arrayStore => "ARRAY_STORE"
  | .arrayLength => "ARRAY_LEN"
  | .raise => "THROW"
  | .shouldCallDirectly => "SHOULD_CALL_DIRECTLY"
  | .methodInvoked => "METHOD_INVOKED"
  | .classInitializing => "CLASS_INITIALIZING"

end Simple

namespace Opcode

/-- Every opcode. -/
def all : List Opcode :=
  Simple.all.map .simple ++
    [.constInt, .constDouble, .constString, .constLong, .constClass, .loadLocal, .storeLocal,
      .jump .always, .jump .ifFalse, .jump .ifTrue, .jump .ifNull, .jump .ifNotNull,
      .invoke .virtual, .invoke .special, .invoke .static, .new,
      .field .get, .field .put, .field .getStatic, .field .putStatic, .instanceOf, .unbox]

/-- The byte of an opcode. -/
def byte : Opcode → UInt8
  | .simple op => op.byte
  | .constInt => 0x07
  | .constDouble => 0x08
  | .constString => 0x09
  | .constLong => 0x0A
  | .constClass => 0x0B
  | .loadLocal => 0x10
  | .storeLocal => 0x11
  | .jump .always => 0x90
  | .jump .ifFalse => 0x91
  | .jump .ifTrue => 0x92
  | .jump .ifNull => 0x93
  | .jump .ifNotNull => 0x94
  | .invoke .virtual => 0xA0
  | .invoke .special => 0xA1
  | .invoke .static => 0xA2
  | .new => 0xB0
  | .field .get => 0xB1
  | .field .put => 0xB2
  | .field .getStatic => 0xB3
  | .field .putStatic => 0xB4
  | .instanceOf => 0xB5
  | .unbox => 0xF3

/-- The mnemonic of an opcode. -/
def name : Opcode → String
  | .simple op => op.name
  | .constInt => "CONST_I32"
  | .constDouble => "CONST_F64"
  | .constString => "CONST_STR"
  | .constLong => "CONST_I64"
  | .constClass => "CONST_CLASS"
  | .loadLocal => "LOAD_LOCAL"
  | .storeLocal => "STORE_LOCAL"
  | .jump .always => "JMP"
  | .jump .ifFalse => "JMP_IF_FALSE"
  | .jump .ifTrue => "JMP_IF_TRUE"
  | .jump .ifNull => "JMP_IF_NULL"
  | .jump .ifNotNull => "JMP_IF_NOT_NULL"
  | .invoke .virtual => "INVOKE_VIRTUAL"
  | .invoke .special => "INVOKE_SPECIAL"
  | .invoke .static => "INVOKE_STATIC"
  | .new => "NEW"
  | .field .get => "GET_FIELD"
  | .field .put => "PUT_FIELD"
  | .field .getStatic => "GET_STATIC"
  | .field .putStatic => "PUT_STATIC"
  | .instanceOf => "INSTANCE_OF"
  | .unbox => "UNBOX"

/-- The opcode that a byte names. -/
def ofByte? (b : UInt8) : Option Opcode :=
  all.find? fun op => op.byte == b

/-- The opcode of a mnemonic. -/
def ofName? (s : String) : Option Opcode :=
  all.find? fun op => op.name == s

/-- How many operand bytes follow the opcode. -/
def operandSize : Opcode → Nat
  | .simple _ => 0
  | .unbox => 1
  | .loadLocal | .storeLocal => 2
  | .constDouble | .constLong => 8
  | .constInt | .constString | .constClass | .jump _ | .invoke _ | .new | .field _
  | .instanceOf => 4

/-- Whether the opcode may transfer control to a label. -/
def isJump : Opcode → Bool
  | .jump _ => true
  | _ => false

/-- Whether the opcode calls a method. -/
def isCall : Opcode → Bool
  | .invoke _ => true
  | _ => false

/-- Whether the opcode leaves its method normally. -/
def isReturn : Opcode → Bool
  | .simple .ret | .simple .retVoid => true
  | _ => false

/-- Whether control never falls through to the next instruction. -/
def isTerminator : Opcode → Bool
  | .simple .raise | .jump .always => true
  | op => op.isReturn

/-- Whether the opcode talks to the dispatch handler; only generated code uses these. -/
def isIntrinsic : Opcode → Bool
  | .simple .shouldCallDirectly | .simple .methodInvoked | .simple .classInitializing
  | .unbox => true
  | _ => false

theorem mem_all (op : Opcode) : op ∈ all := by
  rcases op with op | _ | _ | _ | _ | _ | _ | _ | c | k | _ | a | _ | _
  · cases op <;> first | decide | rename_i o; cases o <;> decide
  all_goals first | decide | cases c <;> decide | cases k <;> decide | cases a <;> decide

theorem byte_of_ofByte? {b : UInt8} {op : Opcode} (h : ofByte? b = some op) : op.byte = b := by
  simpa using List.find?_some h

theorem ofByte?_byte (op : Opcode) : ofByte? op.byte = some op := by
  have hall : ∀ o ∈ all, ofByte? o.byte = some o := by decide
  exact hall op (mem_all op)

end Opcode

end Interpose
