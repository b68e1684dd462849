import Interpose.ClassFile.Basic
import Interpose.Digest.Crc32
/-!
# Class files as bytes

A sixteen-byte header, then the payload. The header holds the magic bytes, the format version, the
class's flags and a check over the payload; the flags are outside what is checked. The payload is
the pool, the names, the annotations, the fields and the methods, in that order, with nothing
behind them.

Reading goes through the header first, so a damaged payload is reported as a failed check before
anything in it is looked at. The byte in front of the superclass's name is read as present
whenever it is not zero, while writing only ever puts a one: it is the one byte of an accepted file
that writing need not give back.
-/

namespace Interpose

/-- Why bytes are no class file. -/
inductive ClassFileError
  | decode (cause : DecodeError)
  /-- The four bytes found in place of the magic. -/
  | invalidMagic (found : Bytes)
  | unsupportedVersion (version : UInt32)
  /-- The stored check differs from the payload's. -/
  | checksumMismatch (stored computed : UInt32)
  /-- Bytes follow the last method. -/
  | trailingData (offset : Nat)
  deriving DecidableEq, Repr

namespace ClassFile

/-- The first four bytes of every class file. -/
def magic : Bytes := [0x55, 0x4D, 0x42, 0x43]

/-- The version of the format. -/
def version : UInt32 := 1

/-- Bytes in front of the payload. -/
def headerSize : Nat := 16

end ClassFile

namespace ClassFileError

/-- The report of a class file error. -/
def message : ClassFileError → String
  | decode cause => s!"Decode error: {cause.message}"
  | invalidMagic found =>
    let bytes := String.intercalate ", " (found.map fun b => toString b.toNat)
    s!"Invalid magic number: expected UMBC, got [{bytes}]"
  | unsupportedVersion version =>
    s!"Unsupported version: {version.toNat} (current: {ClassFile.version.toNat})"
  | checksumMismatch stored computed =>
    s!"Checksum mismatch: expected 0x{Hex.digits stored.toNat}, got 0x{Hex.digits computed.toNat}"
  | trailingData offset => s!"Trailing data after class body at offset {offset}"

end ClassFileError

/-! ## Writing -/

def FieldDef.encode (f : FieldDef) : Bytes :=
  Wire.text f.name ++ Wire.text f.descriptor ++ Wire.u16 f.access

def MethodDef.encode (m : MethodDef) : Bytes :=
  Wire.text m.name ++ Wire.text m.descriptor ++ Wire.u16 m.access
    ++ Wire.table Wire.text m.exceptions ++ Wire.u16 m.maxLocals ++ Wire.blob m.code

namespace ClassFile

/-- The superclass's name behind a byte that says whether there is one. -/
def encodeSuper : Option String → Bytes
  | none => Wire.u8 0
  | some name => Wire.u8 1 ++ Wire.text name

/-- Everything behind the header. -/
def payload (c : ClassFile) : Bytes :=
  c.constants.encode
    ++ Wire.text c.name ++ encodeSuper c.superName ++ Wire.u16 c.access
    ++ Wire.table Wire.text c.annotations
    ++ Wire.table FieldDef.encode c.fields
    ++ Wire.table MethodDef.encode c.methods

/-- The bytes of a class file. -/
def encode (c : ClassFile) : Bytes :=
  let payload := c.payload
  magic ++ Wire.u32 version ++ Wire.u32 c.flags ++ Wire.u32 (Crc32.checksum payload) ++ payload

end ClassFile

/-! ## Reading -/

def FieldDef.read : Reader FieldDef := do
  let name ← Reader.text
  let descriptor ← Reader.text
  let access ← Reader.u16
  return ⟨name, descriptor, access⟩

def MethodDef.read : Reader MethodDef := do
  let name ← Reader.text
  let descriptor ← Reader.text
  let access ← Reader.u16
  let exceptions ← Reader.table Reader.text
  let maxLocals ← Reader.u16
  let code ← Reader.blob
  return ⟨name, descriptor, access, exceptions, maxLocals, code⟩

namespace ClassFile

def readSuper : Reader (Option String) := do
  let present ← Reader.u8
  if present = 0 then
    return none
  else
    return some (← Reader.text)

/-- Reads everything behind the header; the flags stand there. -/
def readPayload (flags : UInt32) : Reader ClassFile := do
  let constants ← Pool.read
  let name ← Reader.text
  let superName ← readSuper
  let access ← Reader.u16
  let annotations ← Reader.table Reader.text
  let fields ← Reader.table FieldDef.read
  let methods ← Reader.table MethodDef.read
  return ⟨flags, constants, name, superName, access, annotations, fields, methods⟩

/-- One step of reading a file: a reader's failure becomes a class file error. -/
def readStep {α : Type} (read : Reader α) (c : Cursor) : Except ClassFileError (α × Cursor) :=
  match read.run c with
  | (.ok a, c) => .ok (a, c)
  | (.error e, _) => .error (.decode e)

/-- The class file of some bytes. -/
def decode (bytes : Bytes) : Except ClassFileError ClassFile := do
  let (found, c) ← readStep (Reader.take 4) (Cursor.start bytes)
  if found ≠ magic then throw (.invalidMagic found)
  let (v, c) ← readStep Reader.u32 c
  if v ≠ version then throw (.unsupportedVersion v)
  let (flags, c) ← readStep Reader.u32 c
  let (stored, c) ← readStep Reader.u32 c
  let computed := Crc32.checksum c.rest
  if stored ≠ computed then throw (.checksumMismatch stored computed)
  let (file, c) ← readStep (readPayload flags) c
  if c.hasMore then throw (.trailingData c.position)
  return file

end ClassFile

end Interpose
