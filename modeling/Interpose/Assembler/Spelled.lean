import Interpose.Assembler
import Interpose.Value.Binary64
/-!
# Spelled instructions

An instruction as a line of a program text has it: a mnemonic, then operands that are numbers or
texts. Longs are decimal texts and doubles are the hexadecimal digits of their bits, since neither
fits the numbers of every reader.

An operand that lives in the pool is spelled by name, or by a number, which is then its index in the
pool as it stands. `Instruction.operands` writes the second form, where names have been interned,
and `Item.ofSpelling?` reads both.
-/

namespace Interpose

/-- An operand as it is spelled. -/
inductive Operand
  | number (n : Int)
  | text (s : String)
  deriving DecidableEq, Repr

namespace Operand

def number? : Operand → Option Int
  | number n => some n
  | text _ => none

def text? : Operand → Option String
  | text s => some s
  | number _ => none

/-- A number without a sign. -/
def nat (n : Nat) : Operand := number n

end Operand

namespace Binary64

/-- The bits of a double in sixteen digits. A NaN is `nan`, whichever it is. -/
def spell (x : Binary64) : String :=
  if x.isNan then "nan" else Hex.encode (Wire.u64 x).reverse

/-- The double with the bits that some digits spell. -/
def ofSpelling? (s : String) : Option Binary64 :=
  (Hex.decode? s).map fun bytes => UInt64.ofNat (LittleEndian.decode bytes.reverse)

end Binary64

/-- The operands of an instruction. -/
def Instruction.operands : Instruction → List Operand
  | .simple _ => []
  | .constInt v => [.number v.toInt]
  | .constLong v => [.text (toString v.toInt)]
  | .constDouble bits => [.text (Binary64.spell bits)]
  | .loadLocal n | .storeLocal n => [.nat n.toNat]
  | .jump _ label => [.nat label]
  | .unbox tag => [.nat tag.toNat]
  | .constString i | .constClass i | .new i | .instanceOf i | .field _ i | .invoke _ i =>
    [.nat i.toNat]

namespace Item

/-- The item that places a label rather than being an instruction. -/
def markWord : String := "MARK"

/-- An instruction whose operand is a number. -/
def ofNumber (op : Opcode) (n : Int) : Option Item :=
  let index := UInt32.ofNat n.toNat
  match op with
  | .simple _ | .constDouble | .constLong => none
  | .constInt => constInt (Int32.ofInt n)
  | .loadLocal => loadLocal (UInt16.ofNat n.toNat)
  | .storeLocal => emit (.storeLocal (UInt16.ofNat n.toNat))
  | .unbox => emit (.unbox (UInt8.ofNat n.toNat))
  | .jump c => jump c n.toNat
  | .constString => emit (.constString index)
  | .constClass => emit (.constClass index)
  | .new => emit (.new index)
  | .instanceOf => emit (.instanceOf index)
  | .field access => emit (.field access index)
  | .invoke kind => emit (.invoke kind index)

/-- An instruction whose operands are texts. -/
def ofTexts : Opcode → List String → Option Item
  | .simple op, [] => simple op
  | .constLong, [s] => s.toInt?.map fun n => emit (.constLong (Int64.ofInt n))
  | .constDouble, [s] => (Binary64.ofSpelling? s).map fun x => emit (.constDouble x)
  | .constString, [s] => constString s
  | .constClass, [name] => constClass name
  | .new, [name] => new name
  | .instanceOf, [name] => instanceOf name
  | .field access, [owner, name] => field access owner name
  | .invoke kind, [owner, name, descriptor] => invoke kind owner name descriptor
  | _, _ => none

/-- The item that a word and its operands spell. -/
def ofSpelling? (word : String) (operands : List Operand) : Option Item :=
  match operands.head? with
  | some (.number n) =>
    if word = markWord then some (mark n.toNat) else (Opcode.ofName? word).bind (ofNumber · n)
  | _ => do ofTexts (← Opcode.ofName? word) (← operands.mapM Operand.text?)

/-- The label that an item marks or jumps to. -/
def label? : Item → Option Nat
  | plain (.mark label) => some label
  | plain (.emit i) => i.target?
  | _ => none

/-- As many labels as a program needs to have allocated. -/
def labelCount (program : List Item) : Nat :=
  (program.filterMap label?).foldl (fun count label => max count (label + 1)) 0

end Item

end Interpose
