import ParallelGzip.Proofs.Checksum.Combine
import ParallelGzip.Proofs.Deflate.Bits

set_option autoImplicit false

/-! # Checksums of blocks

The table of the register stands for a shift register that is fed bit after bit, the lowest of each
byte first; `crc32_eq_foldl_feedBit` says so. The checksum of a string that has been cut into blocks
is put together from theirs, one block after the other: `checksums_combine`. -/

namespace ParallelGzip

open Deflate (numberBits bitsOfByte bitsOfBytes)

namespace Crc32

/-! ## Bit after bit -/

/-- Feed one bit to the register: it is added to the bit that is shifted out next. -/
def feedBit (r : UInt32) (bit : Bool) : UInt32 := shiftBit (if bit then r ^^^ 1 else r)

theorem and_one_eq_one_iff_odd (r : UInt32) : r &&& 1 = 1 ↔ r.toNat % 2 = 1 := by
  rw [← UInt32.toNat_inj, UInt32.toNat_and, UInt32.toNat_one, Nat.and_one_is_mod]

/-- An even register is only shifted. -/
theorem shiftBit_of_even {r : UInt32} (even : ¬r.toNat % 2 = 1) : shiftBit r = r >>> 1 :=
  if_neg (mt (and_one_eq_one_iff_odd r).1 even)

/-- The lowest bit of `x` is fed, and the others are added when it has been shifted out. -/
theorem feedBit_xor_shiftRight (r x : UInt32) :
    feedBit r (x.toNat % 2 = 1) ^^^ (x >>> 1) = shiftBit (r ^^^ x) := by
  by_cases odd : x.toNat % 2 = 1
  · have even : ¬(x ^^^ 1).toNat % 2 = 1 := by
      rw [UInt32.toNat_xor, UInt32.toNat_one, Nat.xor_mod_two_eq_one]
      omega
    have rest : shiftBit (x ^^^ 1) = x >>> 1 := by
      rw [shiftBit_of_even even, UInt32.shiftRight_xor, show (1 : UInt32) >>> 1 = 0 from rfl,
        UInt32.xor_zero]
    have sum : r ^^^ x = (r ^^^ 1) ^^^ (x ^^^ 1) := by
      rw [UInt32.xor_assoc, UInt32.xor_comm x 1, ← UInt32.xor_assoc 1 1 x, UInt32.xor_self,
        UInt32.zero_xor]
    rw [sum, linear_shiftBit, rest, feedBit, decide_eq_true odd, if_pos rfl]
  · rw [linear_shiftBit, shiftBit_of_even odd, feedBit, decide_eq_false odd, if_neg nofun]

/-- Bits that are fed one after the other may as well be added at once. -/
theorem foldl_feedBit_numberBits {n : Nat} {x : UInt32} (fits : x.toNat < Nat.pow 2 n)
    (r : UInt32) : (numberBits n x.toNat).foldl feedBit r = shiftBit^[n] (r ^^^ x) := by
  induction n generalizing x r with
  | zero =>
    have none : x = 0 := UInt32.toNat_inj.1 (Nat.lt_one_iff.1 fits)
    rw [none, UInt32.xor_zero]
    rfl
  | succ n ih =>
    have half : x.toNat / 2 = (x >>> 1).toNat := by
      rw [UInt32.toNat_shiftRight, Nat.shiftRight_eq_div_pow]
      rfl
    have fits' : (x >>> 1).toNat < Nat.pow 2 n := by
      have double : Nat.pow 2 (n + 1) = 2 * Nat.pow 2 n := Nat.pow_succ'
      omega
    rw [numberBits, List.foldl_cons, half, ih fits', feedBit_xor_shiftRight,
      Function.iterate_succ_apply]

/-- A step of the register feeds the bits of a byte. -/
theorem foldl_feedBit_bitsOfByte (r : UInt32) (b : UInt8) :
    (bitsOfByte b).foldl feedBit r = step r b := by
  have bits : bitsOfByte b = numberBits 8 b.toUInt32.toNat := by
    rw [UInt8.toNat_toUInt32, ← Deflate.bitsOfByte_ofNat, UInt8.ofNat_toNat]
  have fits : b.toUInt32.toNat < Nat.pow 2 8 := by
    rw [UInt8.toNat_toUInt32]
    exact b.toNat_lt
  rw [bits, foldl_feedBit_numberBits fits, step_eq_shiftByte, shiftByte_eq_iterate]

end Crc32

theorem crc32_eq_foldl_feedBit (data : Bytes) (init : UInt32) :
    crc32 data init = ~~~((bitsOfBytes data).foldl Crc32.feedBit (~~~init)) := by
  have steps : ∀ r, data.foldl Crc32.step r = (bitsOfBytes data).foldl Crc32.feedBit r := by
    induction data with
    | nil => exact fun _ => rfl
    | cons b data ih =>
      intro r
      rw [List.foldl_cons, Deflate.bitsOfBytes_cons, List.foldl_append,
        Crc32.foldl_feedBit_bitsOfByte, ih]
  rw [crc32, steps]

/-! ## Block after block -/

namespace Crc32

/-- The checksum of what has been cut into blocks goes on from what stands before them. -/
theorem foldl_combine_blocks (blocks : List Bytes) (init : UInt32) :
    (blocks.map fun block => (crc32 block 0, block.length)).foldl
      (fun crc block => combine crc block.1 block.2) init = crc32 blocks.flatten init := by
  induction blocks generalizing init with
  | nil => exact (crc32_nil init).symm
  | cons block blocks ih =>
    rw [List.map_cons, List.foldl_cons, combine_crc32, ih, List.flatten_cons, crc32_append]

end Crc32

/-- Checksums combine exactly. The checksum is that of the shift register of the polynomial, fed bit
    after bit between two inversions. For any two strings, and whatever stands before them, the
    checksums of the two give that of the one followed by the other; and those of any blocks, with
    their lengths, give the checksum of all the blocks in a row, also where some are empty or there
    are none. -/
theorem checksums_combine :
    (∀ (data : Bytes) (init : UInt32),
      crc32 data init = ~~~((bitsOfBytes data).foldl Crc32.feedBit (~~~init))) ∧
    (∀ (first second : Bytes) (init : UInt32),
      Crc32.combine (crc32 first init) (crc32 second 0) second.length =
        crc32 second (crc32 first init) ∧
      crc32 second (crc32 first init) = crc32 (first ++ second) init) ∧
    ∀ blocks : List Bytes,
      (blocks.map fun block => (crc32 block 0, block.length)).foldl
        (fun crc block => Crc32.combine crc block.1 block.2) 0 = crc32 blocks.flatten 0 := by
  refine ⟨crc32_eq_foldl_feedBit, ?_, fun blocks => Crc32.foldl_combine_blocks blocks 0⟩
  intro first second init
  exact ⟨Crc32.combine_crc32 second (crc32 first init), (crc32_append first second init).symm⟩

end ParallelGzip
