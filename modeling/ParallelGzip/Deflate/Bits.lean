import ParallelGzip.Bytes

set_option autoImplicit false

/-! # Bits: what bytes are packed from

Numbers are written as bits, lowest first, and bits are packed into bytes, lowest first too. The
last byte is filled up with zeros. -/

namespace ParallelGzip

namespace Deflate

/-- The lowest `n` bits of a number, lowest first. -/
def numberBits : (n value : Nat) → List Bool
  | 0, _ => []
  | n + 1, value => (value % 2 = 1) :: numberBits n (value / 2)

@[simp] theorem length_numberBits (n value : Nat) : (numberBits n value).length = n := by
  induction n generalizing value with
  | zero => rfl
  | succ n ih => simp [numberBits, ih]

/-- The byte with these bits, lowest first. -/
def byteOfBits (bits : List Bool) : UInt8 :=
  UInt8.ofNat (bits.foldr (fun bit n => bit.toNat + 2 * n) 0)

/-- Bits in bytes behind `acc`, the last of which is filled up with zeros. -/
def packOnto (acc : Array UInt8) : List Bool → Array UInt8
  | b0 :: b1 :: b2 :: b3 :: b4 :: b5 :: b6 :: b7 :: bits =>
    packOnto (acc.push (byteOfBits [b0, b1, b2, b3, b4, b5, b6, b7])) bits
  | [] => acc
  | bits => acc.push (byteOfBits bits)

/-- Bits in bytes, the last of which is filled up with zeros. -/
def pack (bits : List Bool) : Bytes := (packOnto #[] bits).toList

end Deflate

end ParallelGzip
