set_option autoImplicit false

/-! # Byte strings: little-endian fields

A byte string is a list of bytes. The only number format of the gzip framing is the little-endian
field of a fixed width; `ofLittleEndian_littleEndian` says that reading such a field back gives the
number modulo the range of the field. -/

namespace ParallelGzip

/-- A byte string. -/
abbrev Bytes := List UInt8

namespace Bytes

/-- The low `width` bytes of `n`, lowest first. -/
def littleEndian : (width n : Nat) → Bytes
  | 0, _ => []
  | width + 1, n => UInt8.ofNat n :: littleEndian width (n / 256)

/-- The number whose bytes, lowest first, are `bytes`. -/
def ofLittleEndian : Bytes → Nat
  | [] => 0
  | b :: bytes => b.toNat + 256 * ofLittleEndian bytes

@[simp] theorem length_littleEndian (width n : Nat) : (littleEndian width n).length = width := by
  induction width generalizing n with
  | zero => rfl
  | succ width ih => simp [littleEndian, ih]

theorem ofLittleEndian_littleEndian (width n : Nat) :
    ofLittleEndian (littleEndian width n) = n % Nat.pow 256 width := by
  induction width generalizing n with
  | zero => simp [littleEndian, ofLittleEndian, Nat.mod_one]
  | succ width ih =>
    have hb : (UInt8.ofNat n).toNat = n % 256 := by simp
    rw [littleEndian, ofLittleEndian, ih, hb,
      show Nat.pow 256 (width + 1) = 256 * Nat.pow 256 width from Nat.mul_comm _ _, Nat.mod_mul]

/-- A number written in as many bytes as it was read from gives these bytes back. -/
theorem littleEndian_ofLittleEndian (bytes : Bytes) :
    littleEndian bytes.length (ofLittleEndian bytes) = bytes := by
  induction bytes with
  | nil => rfl
  | cons b bytes ih =>
    have low : UInt8.ofNat (b.toNat + 256 * ofLittleEndian bytes) = b :=
      UInt8.toNat_inj.1 (by simp)
    have high : (b.toNat + 256 * ofLittleEndian bytes) / 256 = ofLittleEndian bytes := by
      have small : b.toNat < 256 := b.toNat_lt
      omega
    rw [List.length_cons, littleEndian, ofLittleEndian, low, high, ih]

theorem ofLittleEndian_lt (bytes : Bytes) :
    ofLittleEndian bytes < Nat.pow 256 bytes.length := by
  have low := ofLittleEndian_littleEndian bytes.length (ofLittleEndian bytes)
  rw [littleEndian_ofLittleEndian] at low
  rw [low]
  exact Nat.mod_lt _ (Nat.pow_pos (by decide))

/-- Fields of the same width with the same number are the same. -/
theorem ofLittleEndian_injective {first second : Bytes} (width : first.length = second.length)
    (number : ofLittleEndian first = ofLittleEndian second) : first = second := by
  rw [← littleEndian_ofLittleEndian first, ← littleEndian_ofLittleEndian second, width, number]

end Bytes

end ParallelGzip
