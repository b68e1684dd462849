import Interpose.Instruction.Basic
/-!
# Method bodies as bytes

A method body is a run of instructions, each an opcode byte followed by its operand. A jump's
operand is the signed distance from the instruction after it to its target.

Writing works out where each instruction will stand, turns labels into distances and writes the
bytes. Reading undoes this in two passes. The first splits the bytes at instruction boundaries,
`Code.split`; it alone can meet a byte that is no opcode or an operand that is cut off. The second,
`Code.resolve`, turns each distance into the index of the instruction it leads to and checks the
tags of unboxing instructions; it goes through the instructions in order and stops at the first
fault.

A label at or behind the end of the program is written as a jump to the end of the bytes, which
reading refuses.
-/

namespace Interpose

/-- Operand bytes of an instruction whose jumps are distances. -/
def InstructionOf.operandBytes : InstructionOf Int32 → Bytes
  | .simple _ => []
  | .constInt v => Wire.i32 v
  | .constDouble bits => Wire.u64 bits
  | .constString i => Wire.u32 i
  | .constLong v => Wire.i64 v
  | .constClass i => Wire.u32 i
  | .loadLocal n => Wire.u16 n
  | .storeLocal n => Wire.u16 n
  | .jump _ distance => Wire.i32 distance
  | .invoke _ i => Wire.u32 i
  | .new i => Wire.u32 i
  | .field _ i => Wire.u32 i
  | .instanceOf i => Wire.u32 i
  | .unbox tag => Wire.u8 tag

/-- An instruction whose jumps are distances, as bytes. -/
def InstructionOf.encode (i : InstructionOf Int32) : Bytes :=
  i.opcode.byte :: i.operandBytes

/-- The instruction of an opcode and the bytes of its operand, which are as many as the opcode
takes. -/
def Opcode.withOperand (op : Opcode) (operand : Bytes) : InstructionOf Int32 :=
  let n := LittleEndian.decode operand
  match op with
  | .simple op => .simple op
  | .constInt => .constInt (UInt32.ofNat n).toInt32
  | .constDouble => .constDouble (UInt64.ofNat n)
  | .constString => .constString (UInt32.ofNat n)
  | .constLong => .constLong (UInt64.ofNat n).toInt64
  | .constClass => .constClass (UInt32.ofNat n)
  | .loadLocal => .loadLocal (UInt16.ofNat n)
  | .storeLocal => .storeLocal (UInt16.ofNat n)
  | .jump c => .jump c (UInt32.ofNat n).toInt32
  | .invoke k => .invoke k (UInt32.ofNat n)
  | .new => .new (UInt32.ofNat n)
  | .field a => .field a (UInt32.ofNat n)
  | .instanceOf => .instanceOf (UInt32.ofNat n)
  | .unbox => .unbox (UInt8.ofNat n)

namespace Code

/-! ## Writing -/

/-- Where each instruction starts, when the first starts at `start`. -/
def offsets {T : Type} (start : Nat) : List (InstructionOf T) → List Nat
  | [] => []
  | i :: rest => start :: offsets (start + i.size) rest

/-- Bytes taken by a program. -/
def byteSize {T : Type} : List (InstructionOf T) → Nat
  | [] => 0
  | i :: rest => i.size + byteSize rest

/-- Turns labels into distances. `place` says where a label leads, and `start` is where the first
instruction stands. -/
def toDistances (place : Nat → Nat) (start : Nat) : List Instruction → List (InstructionOf Int32)
  | [] => []
  | i :: rest =>
    let next := start + i.size
    i.mapTarget (fun label => Int32.ofNat (place label) - Int32.ofNat next)
      :: toDistances place next rest

/-- The bytes of a program. -/
def encode (code : List Instruction) : Bytes :=
  let starts := offsets 0 code
  let place := fun label => starts[label]?.getD (byteSize code)
  (toDistances place 0 code).flatMap InstructionOf.encode

/-! ## Reading -/

/-- Splits a method body into instructions, each with the offset at which it starts. `total` is the
length of the whole body and `start` the offset of the bytes at hand. -/
def split (total start : Nat) (bytes : Bytes) :
    Except DecodeError (List (Nat × InstructionOf Int32)) :=
  match bytes with
  | [] => .ok []
  | b :: rest =>
    match Opcode.ofByte? b with
    | none => .error (.invalidOpcode b start)
    | some op =>
      let operand := rest.take op.operandSize
      if operand.length = op.operandSize then
        match split total (start + 1 + op.operandSize) (rest.drop op.operandSize) with
        | .error e => .error e
        | .ok code => .ok ((start, op.withOperand operand) :: code)
      else .error (.unexpectedEnd total)
termination_by bytes.length
decreasing_by simp only [List.length_drop, List.length_cons]; omega

/-- The index of the instruction that starts at a byte offset. -/
def labelAt? (starts : List Nat) (offset : Int) : Option Nat :=
  if 0 ≤ offset then starts.idxOf? offset.toNat else none

/-- Turns the distance of a jump into a label, and checks the tag of an unboxing instruction. The
instruction stands at `start`. -/
def resolve (starts : List Nat) (start : Nat) :
    InstructionOf Int32 → Except DecodeError Instruction
  | .jump c distance =>
    let target : Int := (start + 5 : Nat) + distance.toInt
    match labelAt? starts target with
    | some label => .ok (.jump c label)
    | none => .error (.invalidJumpTarget start target)
  | .unbox tag =>
    match TypeDesc.ofTag? tag with
    | some _ => .ok (.unbox tag)
    | none => .error (.invalidTypeTag tag (start + 1))
  | i => .ok (i.mapTarget fun _ => 0)

/-- The program of a method body. -/
def decode (bytes : Bytes) : Except DecodeError (List Instruction) := do
  let located ← split bytes.length 0 bytes
  let starts := located.map Prod.fst
  located.mapM fun (start, i) => resolve starts start i

end Code

end Interpose
