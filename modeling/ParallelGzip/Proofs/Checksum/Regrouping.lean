import Mathlib.Algebra.BigOperators.Group.List.Basic
import ParallelGzip.Proofs.Checksum.Combine

set_option autoImplicit false

/-! # Checksums of blocks may be combined in groups

A checksum together with the length of what it stands for is a part. Parts are put behind one
another by combining their checksums and adding their lengths, and this makes them a monoid: the
shifts that stand for the bytes of two parts are the shifts for both in a row. No string needs to be
at hand, so the values may be any. What has to be asked is only that a part of no bytes has the
checksum of no bytes. -/

namespace ParallelGzip

namespace Crc32

/-! ## Shifts lose nothing -/

/-- The bit that is shifted out comes back as the highest one. -/
theorem eq_zero_of_shiftBit {r : UInt32} (zero : shiftBit r = 0) : r = 0 := by
  have bits : ∀ i, (shiftBit r).toBitVec.getLsbD i = false := by
    intro i
    rw [zero]
    simp
  have lowest : r.toBitVec.getLsbD 0 = false := by
    have top := bits 31
    rw [getLsbD_shiftBit] at top
    simpa [polynomial] using top
  rw [← UInt32.toBitVec_inj]
  refine BitVec.eq_of_getLsbD_eq ?_
  intro i _
  cases i with
  | zero => simpa using lowest
  | succ i =>
    have rest := bits i
    rw [getLsbD_shiftBit, lowest, Bool.false_and, Bool.xor_false] at rest
    simpa using rest

theorem eq_zero_of_iterate_shiftBit {r : UInt32} {n : Nat} (zero : shiftBit^[n] r = 0) : r = 0 := by
  induction n with
  | zero => exact zero
  | succ n ih =>
    rw [Function.iterate_succ_apply'] at zero
    exact ih (eq_zero_of_shiftBit zero)

theorem iterate_shiftByte_eq_zero_iff (r : UInt32) (n : Nat) : shiftByte^[n] r = 0 ↔ r = 0 := by
  constructor
  · intro zero
    rw [shiftByte_eq_iterate, ← Function.iterate_mul] at zero
    exact eq_zero_of_iterate_shiftBit zero
  · rintro rfl
    exact (linear_shiftByte.iterate n).map_zero

/-! ## Combining in another order -/

theorem combine_of_ne_zero {n : Nat} (some : n ≠ 0) (a b : UInt32) :
    combine a b n = shiftByte^[n] a ^^^ b := by
  rw [combine, if_neg some, zeroByte, Operator.applyTimes_ofFunction linear_shiftByte]

/-- A part of no bytes may be taken for shifted by none, if it claims no checksum. -/
theorem combine_eq_iterate {b : UInt32} {n : Nat} (empty : n = 0 → b = 0) (a : UInt32) :
    combine a b n = shiftByte^[n] a ^^^ b := by
  by_cases none : n = 0
  · rw [none, combine_zero, empty none, UInt32.xor_zero, Function.iterate_zero_apply]
  · exact combine_of_ne_zero none a b

/-- Which two of three are combined first makes no difference, but for a part of no bytes that claims
    a checksum: behind what it follows it is passed over, and with bytes behind it its claim is
    shifted along. -/
theorem combine_combine_iff (a b c : UInt32) (lengthB lengthC : Nat) :
    combine (combine a b lengthB) c lengthC =
        combine a (combine b c lengthC) (lengthB + lengthC) ↔
      (lengthB = 0 → lengthC ≠ 0 → b = 0) := by
  by_cases noC : lengthC = 0
  · simp [noC]
  · have both : lengthB + lengthC ≠ 0 := mt (fun none => (Nat.add_eq_zero_iff.1 none).2) noC
    rw [combine_of_ne_zero noC, combine_of_ne_zero both, combine_of_ne_zero noC,
      ← UInt32.xor_assoc, UInt32.xor_left_inj]
    by_cases noB : lengthB = 0
    · have passed : ∀ x y : UInt32, x = x ^^^ y ↔ y = 0 := by
        intro x y
        conv_lhs => lhs; rw [← UInt32.xor_zero (a := x)]
        rw [UInt32.xor_right_inj, eq_comm]
      rw [noB, combine_zero, Nat.zero_add, passed, iterate_shiftByte_eq_zero_iff]
      exact ⟨fun zero _ _ => zero, fun zero => zero rfl noC⟩
    · rw [combine_of_ne_zero noB, linear_shiftByte.iterate, Nat.add_comm,
        Function.iterate_add_apply]
      exact iff_of_true rfl fun none => absurd none noB

/-! ## Parts -/

/-- A checksum and the length of what it is to stand for. Nothing has no checksum to claim. -/
@[ext]
structure Part where
  crc : UInt32
  length : Nat
  empty : length = 0 → crc = 0
deriving DecidableEq

namespace Part

/-- The checksum of what is in front goes on over the part. -/
def after (crc : UInt32) (part : Part) : UInt32 := combine crc part.crc part.length

/-- Two parts, one behind the other. -/
def append (first second : Part) : Part where
  crc := after first.crc second
  length := first.length + second.length
  empty := by
    intro none
    obtain ⟨noFirst, noSecond⟩ := Nat.add_eq_zero_iff.1 none
    rw [after, noSecond, combine_zero, first.empty noFirst]

theorem after_zero (part : Part) : after 0 part = part.crc := by
  rw [after, combine_eq_iterate part.empty, (linear_shiftByte.iterate _).map_zero, UInt32.zero_xor]

theorem after_append (crc : UInt32) (first second : Part) :
    after crc (append first second) = after (after crc first) second :=
  ((combine_combine_iff crc first.crc second.crc first.length second.length).2
    fun none _ => first.empty none).symm

/-- Parts in a row. -/
instance : Monoid Part where
  one := ⟨0, 0, fun _ => rfl⟩
  mul := append
  one_mul part := Part.ext (after_zero part) (Nat.zero_add part.length)
  mul_one part := Part.ext (combine_zero part.crc 0) rfl
  mul_assoc a b c := Part.ext (after_append a.crc b c).symm (Nat.add_assoc a.length b.length c.length)

/-- Going on part after part is going on over all of them at once. -/
theorem foldl_after (parts : List Part) (crc : UInt32) :
    parts.foldl after crc = after crc parts.prod := by
  induction parts generalizing crc with
  | nil => exact (combine_zero crc 0).symm
  | cons part parts ih =>
    rw [List.foldl_cons, ih, List.prod_cons]
    exact (after_append crc part parts.prod).symm

end Part

end Crc32

open Crc32 (Part combine)

/-- Checksums combine in any grouping. Whatever values are claimed for three parts and however long
    they are, the first two may be combined first or the last two. What has to be asked is that a
    part of no bytes claims the checksum of no bytes, and only of the one in the middle. That
    checksum changes nothing in front of a part or behind it. So where the checksum goes on block
    after block, any blocks in a row may have been combined before. -/
theorem checksums_regroup :
    (∀ (a b c : UInt32) (lengthB lengthC : Nat), (lengthB = 0 → b = 0) →
      combine (combine a b lengthB) c lengthC =
        combine a (combine b c lengthC) (lengthB + lengthC)) ∧
    (∀ (a b : UInt32) (lengthB : Nat), (lengthB = 0 → b = 0) →
      combine a 0 0 = a ∧ combine 0 b lengthB = b) ∧
    ∀ (groups : List (List Part)) (crc : UInt32),
      (groups.map List.prod).foldl Part.after crc = groups.flatten.foldl Part.after crc := by
  refine ⟨?_, ?_, ?_⟩
  · intro a b c lengthB lengthC emptyB
    exact (Crc32.combine_combine_iff a b c lengthB lengthC).2 fun none _ => emptyB none
  · intro a b lengthB emptyB
    exact ⟨Crc32.combine_zero a 0, Part.after_zero ⟨b, lengthB, emptyB⟩⟩
  · intro groups crc
    rw [Part.foldl_after, Part.foldl_after, List.prod_flatten]

/-- The largest lengths of 64 bits that are allowed together. -/
theorem checksums_regroup_longest :
    combine (combine 1 2 (2 ^ 63)) 3 (2 ^ 63 - 1) =
        combine 1 (combine 2 3 (2 ^ 63 - 1)) (2 ^ 63 + (2 ^ 63 - 1)) ∧
      combine 0 2 (2 ^ 63) = 2 := by
  obtain ⟨groups, identity, _⟩ := checksums_regroup
  exact ⟨groups 1 2 3 (2 ^ 63) (2 ^ 63 - 1) (by decide),
    (identity 1 2 (2 ^ 63) (by decide)).2⟩

end ParallelGzip
