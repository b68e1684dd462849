/-!
# Little-endian numbers

Every number of the class format is written with its least significant byte first, in a width
fixed by its type. Both directions live here on lists of bytes, with the two round trips
`decode_encode` and `encode_decode`; the typed fields of `Interpose.Bytes.Datum` are these at
widths 1, 2, 4 and 8.
-/

namespace Interpose

/-- A byte string. A list, because every reader here takes from the front and every law is an
induction on what is left. -/
abbrev Bytes := List UInt8

namespace LittleEndian

/-- The `width` least significant bytes of `n`; higher ones are dropped. -/
def encode : Nat → Nat → Bytes
  | 0, _ => []
  | width + 1, n => UInt8.ofNat n :: encode width (n / 256)

/-- The number whose bytes these are. -/
def decode : Bytes → Nat
  | [] => 0
  | b :: bs => b.toNat + 256 * decode bs

@[simp] theorem length_encode (width n : Nat) : (encode width n).length = width := by
  induction width generalizing n with
  | zero => rfl
  | succ width ih => simp [encode, ih]

theorem decode_encode (width n : Nat) : decode (encode width n) = n % Nat.pow 256 width := by
  induction width generalizing n with
  | zero => exact (Nat.mod_one n).symm
  | succ width ih =>
    show (UInt8.ofNat n).toNat + 256 * decode (encode width (n / 256)) =
      n % (Nat.pow 256 width * 256)
    rw [ih, Nat.mul_comm (Nat.pow 256 width), Nat.mod_mul, UInt8.toNat_ofNat']

theorem decode_lt (bs : Bytes) : decode bs < Nat.pow 256 bs.length := by
  induction bs with
  | nil => exact Nat.zero_lt_one
  | cons b bs ih =>
    have hb := b.toNat_lt
    show b.toNat + 256 * decode bs < Nat.pow 256 bs.length * 256
    omega

theorem encode_decode (bs : Bytes) : encode bs.length (decode bs) = bs := by
  induction bs with
  | nil => rfl
  | cons b bs ih =>
    have hb := b.toNat_lt
    have hdiv : (b.toNat + 256 * decode bs) / 256 = decode bs := by omega
    have hbyte : UInt8.ofNat (b.toNat + 256 * decode bs) = b := by
      apply UInt8.toNat_inj.1
      simp only [UInt8.toNat_ofNat']
      omega
    rw [List.length_cons, encode, decode, hdiv, ih, hbyte]

end LittleEndian

end Interpose
