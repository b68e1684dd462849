import Interpose.Bytes.Reader
/-!
# Typed fields

The fields a class file is made of: fixed-width numbers, length-prefixed text and blobs. `Wire`
writes each of them, `Interpose.Bytes.Reader` reads each of them, and `Datum` is the sum of the
eight, so that a layout can be talked about as a list of data. A double is its bit pattern: nothing
here computes with one, and a payload must survive.
-/

namespace Interpose

/-! ## Writing one field -/

namespace Wire

def u8 (v : UInt8) : Bytes := LittleEndian.encode 1 v.toNat

def u16 (v : UInt16) : Bytes := LittleEndian.encode 2 v.toNat

def u32 (v : UInt32) : Bytes := LittleEndian.encode 4 v.toNat

def i32 (v : Int32) : Bytes := LittleEndian.encode 4 v.toUInt32.toNat

def u64 (v : UInt64) : Bytes := LittleEndian.encode 8 v.toNat

def i64 (v : Int64) : Bytes := LittleEndian.encode 8 v.toUInt64.toNat

/-- A count of entries or bytes, as written in front of them. -/
def count (n : Nat) : Bytes := u32 (UInt32.ofNat n)

/-- Bytes behind their count. -/
def blob (bytes : Bytes) : Bytes := count bytes.length ++ bytes

/-- The UTF-8 bytes of a text. -/
def utf8 (s : String) : Bytes := s.toByteArray.data.toList

/-- UTF-8 text behind the count of its bytes. -/
def text (s : String) : Bytes := blob (utf8 s)

/-- A table: the count of the entries, then each of them. -/
def table {α : Type} (write : α → Bytes) (entries : List α) : Bytes :=
  count entries.length ++ entries.flatMap write

/-- Overwrites the four bytes at `offset`. The buffer keeps its length when they are all inside it,
which is the only use. -/
def patch (buffer : Bytes) (offset : Nat) (v : UInt32) : Bytes :=
  buffer.take offset ++ u32 v ++ buffer.drop (offset + 4)

end Wire

/-! ## The sum of the fields -/

/-- A typed field and its value. -/
inductive Datum
  | u8 (v : UInt8)
  | u16 (v : UInt16)
  | u32 (v : UInt32)
  | i32 (v : Int32)
  | i64 (v : Int64)
  | f64 (bits : UInt64)
  | text (s : String)
  | blob (bytes : Bytes)
  deriving DecidableEq

namespace Datum

/-- The types of field. -/
inductive Kind
  | u8 | u16 | u32 | i32 | i64 | f64 | text | blob
  deriving DecidableEq, Repr

namespace Kind

/-- Every type of field. -/
def all : List Kind := [.u8, .u16, .u32, .i32, .i64, .f64, .text, .blob]

/-- The name of a type. -/
def name : Kind → String
  | .u8 => "u8"
  | .u16 => "u16"
  | .u32 => "u32"
  | .i32 => "i32"
  | .i64 => "i64"
  | .f64 => "f64"
  | .text => "string"
  | .blob => "blob"

/-- The type with a name. -/
def ofName? (s : String) : Option Kind := all.find? fun k => k.name == s

end Kind

/-- The type a value has. -/
def kind : Datum → Kind
  | .u8 _ => .u8
  | .u16 _ => .u16
  | .u32 _ => .u32
  | .i32 _ => .i32
  | .i64 _ => .i64
  | .f64 _ => .f64
  | .text _ => .text
  | .blob _ => .blob

/-- The bytes of a value. -/
def encode : Datum → Bytes
  | .u8 v => Wire.u8 v
  | .u16 v => Wire.u16 v
  | .u32 v => Wire.u32 v
  | .i32 v => Wire.i32 v
  | .i64 v => Wire.i64 v
  | .f64 bits => Wire.u64 bits
  | .text s => Wire.text s
  | .blob bytes => Wire.blob bytes

end Datum

/-- Reads a value of a given type. -/
def Reader.datum : Datum.Kind → Reader Datum
  | .u8 => return .u8 (← Reader.u8)
  | .u16 => return .u16 (← Reader.u16)
  | .u32 => return .u32 (← Reader.u32)
  | .i32 => return .i32 (← Reader.i32)
  | .i64 => return .i64 (← Reader.i64)
  | .f64 => return .f64 (← Reader.u64)
  | .text => return .text (← Reader.text)
  | .blob => return .blob (← Reader.blob)

end Interpose
