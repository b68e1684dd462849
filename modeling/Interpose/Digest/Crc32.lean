import Interpose.Bytes.LittleEndian
/-!
# The 32-bit cyclic redundancy check

The reflected check with polynomial `0xEDB88320`, register and result inverted. It is written bit by
bit, which is its definition: a register is stepped eight times for each byte, and a step is a shift
and, when the bit that falls out is set, an exclusive or with the polynomial.
-/

namespace Interpose.Crc32

/-- The reflected generator polynomial. -/
def polynomial : UInt32 := 0xEDB88320

/-- One bit. -/
def step (register : UInt32) : UInt32 :=
  if register &&& 1 = 1 then (register >>> 1) ^^^ polynomial else register >>> 1

/-- The register after eight bits. -/
def stepByte (register : UInt32) : UInt32 :=
  step (step (step (step (step (step (step (step register)))))))

/-- The register after one more byte. -/
def update (register : UInt32) (b : UInt8) : UInt32 :=
  stepByte (register ^^^ b.toUInt32)

/-- The check of a byte string. -/
def checksum (bytes : Bytes) : UInt32 :=
  ~~~ bytes.foldl update 0xFFFFFFFF

end Interpose.Crc32
