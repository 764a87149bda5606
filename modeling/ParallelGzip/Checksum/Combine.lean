import ParallelGzip.Checksum

set_option autoImplicit false

/-! # Combining checksums: the CRC-32 of a concatenation from the parts

Feeding zero bytes to the register is a linear map over GF(2). Such a map is kept as the images of
the 32 single bits; the map for `n` zero bytes comes from repeated squaring. -/

namespace ParallelGzip

namespace Crc32

/-- A linear map of registers, given by the images of the 32 bits. -/
abbrev Operator := Vector UInt32 32

namespace Operator

/-- The map that agrees with `f` on single bits. -/
def ofFunction (f : UInt32 → UInt32) : Operator :=
  Vector.ofFn fun i => f (1 <<< UInt32.ofNat i.val)

/-- The exclusive or of the images of the bits that are set in `r`, from bit `i` on. -/
def applyFrom (m : Operator) (r : UInt32) : (i : Nat) → UInt32
  | 0 => 0
  | i + 1 =>
    if h : i < 32 then
      (if r.toBitVec.getLsbD i then m.get ⟨i, h⟩ else 0) ^^^ applyFrom m r i
    else applyFrom m r i

/-- The image of a register. -/
def apply (m : Operator) (r : UInt32) : UInt32 := applyFrom m r 32

/-- First `m`, then `k`. -/
def andThen (m k : Operator) : Operator := ofFunction fun r => k.apply (m.apply r)

/-- `m` applied `n` times, by repeated squaring. -/
def applyTimes (m : Operator) (n : Nat) (r : UInt32) : UInt32 :=
  if n = 0 then r
  else applyTimes (m.andThen m) (n / 2) (if n % 2 = 1 then m.apply r else r)
termination_by n

end Operator

/-- What one zero byte does to the register. -/
def zeroByte : Operator := Operator.ofFunction shiftByte

/-- The checksum of `a ++ b` from the checksums of `a` and of `b` and the length of `b`. Nothing is
    appended by a string of length 0, whatever checksum is claimed for it. -/
def combine (crcA crcB : UInt32) (lengthB : Nat) : UInt32 :=
  if lengthB = 0 then crcA else zeroByte.applyTimes lengthB crcA ^^^ crcB

@[simp] theorem combine_zero (crcA crcB : UInt32) : combine crcA crcB 0 = crcA := by
  simp [combine]

end Crc32

end ParallelGzip
