import Interpose.Bytes.Hex
/-!
# Reading bytes in order

A `Cursor` is a position and what lies ahead of it; a `Reader` advances it or fails with a
`DecodeError`. A failing read of a single field leaves the cursor where it was. A length-prefixed
field is two reads, so when its body is missing the cursor stays behind the prefix, and a text
that is not UTF-8 has been passed over: the cursor survives the failure, which is why the state is
under the exception and not over it.

There is no way to move past the end: `take` hands out only bytes that are there.
-/

namespace Interpose

/-- What can be wrong with encoded bytes. Offsets count bytes from the start of the buffer. -/
inductive DecodeError
  /-- Fewer bytes are left than the field at this offset needs. -/
  | unexpectedEnd (offset : Nat)
  /-- The text whose length prefix is at this offset is not UTF-8. -/
  | invalidUtf8 (offset : Nat)
  /-- The byte names no opcode. -/
  | invalidOpcode (byte : UInt8) (offset : Nat)
  /-- The jump at `offset` leads to `target`, which starts no instruction. -/
  | invalidJumpTarget (offset : Nat) (target : Int)
  /-- The operand tags no primitive type. -/
  | invalidTypeTag (tag : UInt8) (offset : Nat)
  deriving DecidableEq, Repr

namespace DecodeError

/-- The report of a decoding error. -/
def message : DecodeError → String
  | unexpectedEnd offset => s!"Unexpected end of bytecode at offset {offset}"
  | invalidUtf8 offset => s!"Invalid UTF-8 string at offset {offset}"
  | invalidOpcode byte offset =>
    s!"Invalid opcode 0x{String.ofList (Hex.byte byte)} at offset {offset}"
  | invalidJumpTarget offset target => s!"Invalid jump target {target} from offset {offset}"
  | invalidTypeTag tag offset => s!"Invalid type tag {tag.toNat} at offset {offset}"

end DecodeError

/-- A place in a buffer: how many bytes lie behind it, and the bytes ahead. -/
structure Cursor where
  position : Nat
  rest : Bytes
  deriving DecidableEq, Repr

namespace Cursor

/-- The start of a buffer. -/
def start (bytes : Bytes) : Cursor := ⟨0, bytes⟩

/-- How many bytes are left. -/
def remaining (c : Cursor) : Nat := c.rest.length

/-- Whether any byte is left. -/
def hasMore (c : Cursor) : Bool := !c.rest.isEmpty

end Cursor

/-- A computation that reads from a cursor. -/
abbrev Reader := ExceptT DecodeError (StateM Cursor)

namespace Reader

/-- The cursor's position. -/
def position : Reader Nat := return (← get).position

/-- The next `count` bytes, or `unexpectedEnd` without moving. -/
def take (count : Nat) : Reader Bytes := do
  let c ← get
  let taken := c.rest.take count
  if taken.length = count then
    set (Cursor.mk (c.position + count) (c.rest.drop count))
    return taken
  else
    throw (.unexpectedEnd c.position)

/-- An unsigned number of `width` bytes. -/
def number (width : Nat) : Reader Nat :=
  return LittleEndian.decode (← take width)

def u8 : Reader UInt8 := return UInt8.ofNat (← number 1)

def u16 : Reader UInt16 := return UInt16.ofNat (← number 2)

def u32 : Reader UInt32 := return UInt32.ofNat (← number 4)

def i32 : Reader Int32 := return (UInt32.ofNat (← number 4)).toInt32

def u64 : Reader UInt64 := return UInt64.ofNat (← number 8)

def i64 : Reader Int64 := return (UInt64.ofNat (← number 8)).toInt64

/-- Bytes behind a four-byte count of them. -/
def blob : Reader Bytes := do
  let count ← u32
  take count.toNat

/-- UTF-8 text behind a four-byte count of its bytes. -/
def text : Reader String := do
  let start ← position
  let bytes ← blob
  match String.fromUTF8? ⟨bytes.toArray⟩ with
  | some s => return s
  | none => throw (.invalidUtf8 start)

/-- Runs `read` a given number of times, in order. -/
def replicate {α : Type} (read : Reader α) : Nat → Reader (List α)
  | 0 => return []
  | count + 1 => do
    let a ← read
    let as ← replicate read count
    return a :: as

/-- A table: a four-byte count, then that many entries. -/
def table {α : Type} (read : Reader α) : Reader (List α) := do
  let count ← u32
  replicate read count.toNat

/-- Runs a reader over a whole buffer and forgets the cursor. -/
def runOn {α : Type} (read : Reader α) (bytes : Bytes) : Except DecodeError α :=
  (read.run (Cursor.start bytes)).1

end Reader

end Interpose
