import Mathlib.Logic.Function.Iterate
import ParallelGzip.Checksum.Combine

set_option autoImplicit false

/-! # Combining checksums is right

A step of the register shifts out a byte of register and input together, and shifting is linear. So
what comes before a byte string acts on its checksum through as many shifts as it has bytes, and
these are what `combine` computes from the images of single bits. -/

namespace ParallelGzip

namespace Crc32

/-- A map of registers that is linear over GF(2). -/
def Linear (f : UInt32 → UInt32) : Prop := ∀ x y, f (x ^^^ y) = f x ^^^ f y

namespace Linear

variable {f g : UInt32 → UInt32}

theorem map_zero (linear : Linear f) : f 0 = 0 := by
  have twice := linear 0 0
  rwa [UInt32.xor_self, UInt32.xor_self] at twice

theorem comp (hg : Linear g) (hf : Linear f) : Linear (g ∘ f) := by
  intro x y
  simp only [Function.comp_apply, hf x y, hg (f x) (f y)]

theorem iterate (linear : Linear f) (n : Nat) : Linear f^[n] := by
  induction n with
  | zero =>
    intro x y
    rfl
  | succ n ih => exact ih.comp linear

end Linear

/-! ## Shifting -/

theorem and_one_eq_one_iff (r : UInt32) : r &&& 1 = 1 ↔ r.toBitVec.getLsbD 0 = true := by
  rw [← UInt32.toBitVec_inj, UInt32.toBitVec_and, show (1 : UInt32).toBitVec = 1#32 from rfl,
    BitVec.and_one_eq_setWidth_ofBool_getLsbD]
  cases r.toBitVec.getLsbD 0 <;> decide

/-- The bits of a register from which one has been shifted out. -/
theorem getLsbD_shiftBit (r : UInt32) (i : Nat) :
    (shiftBit r).toBitVec.getLsbD i =
      (r.toBitVec.getLsbD (i + 1) ^^ (r.toBitVec.getLsbD 0 && polynomial.toBitVec.getLsbD i)) := by
  unfold shiftBit
  by_cases odd : r &&& 1 = 1
  · rw [if_pos odd, (and_one_eq_one_iff r).1 odd]
    simp [Nat.add_comm]
  · rw [if_neg odd, Bool.eq_false_iff.2 (mt (and_one_eq_one_iff r).2 odd)]
    simp [Nat.add_comm]

theorem linear_shiftBit : Linear shiftBit := by
  intro x y
  rw [← UInt32.toBitVec_inj, UInt32.toBitVec_xor]
  refine BitVec.eq_of_getLsbD_eq ?_
  intro i _
  simp only [BitVec.getLsbD_xor, getLsbD_shiftBit, UInt32.toBitVec_xor]
  grind

theorem shiftByte_eq_iterate : shiftByte = shiftBit^[8] := rfl

theorem linear_shiftByte : Linear shiftByte := linear_shiftBit.iterate 8

/-- Nothing comes back in as long as only zeros are shifted out. -/
theorem getLsbD_iterate_shiftBit {r : UInt32} {n : Nat}
    (low : ∀ i < n, r.toBitVec.getLsbD i = false) (i : Nat) :
    (shiftBit^[n] r).toBitVec.getLsbD i = r.toBitVec.getLsbD (i + n) := by
  induction n generalizing i with
  | zero => rfl
  | succ n ih =>
    have before := ih fun i hi => low i (Nat.lt_succ_of_lt hi)
    rw [Function.iterate_succ_apply', getLsbD_shiftBit, before, before, Nat.zero_add,
      low n (Nat.lt_succ_self n), Bool.false_and, Bool.xor_false, Nat.add_right_comm, Nat.add_assoc]

/-! ## Steps of the register -/

theorem get_table (b : UInt8) : table.get b.toFin = shiftByte b.toUInt32 := by
  have entry : table.get b.toFin = shiftByte (UInt32.ofNat b.toNat) :=
    Vector.getElem_ofFn (b.toNat_lt)
  rw [entry, UInt32.ofNat_uInt8ToNat]

/-- A step shifts out the byte of the register to which the input has been added. -/
theorem step_eq_shiftByte (r : UInt32) (b : UInt8) : step r b = shiftByte (r ^^^ b.toUInt32) := by
  -- the sum is cut into its low byte, which the table knows, and a rest that has a low byte of zero
  have cut : r ^^^ b.toUInt32 =
      (r.toUInt8 ^^^ b).toUInt32 ^^^ (r ^^^ b.toUInt32 ^^^ (r.toUInt8 ^^^ b).toUInt32) := by
    rw [UInt32.xor_comm _ (r ^^^ b.toUInt32 ^^^ _), UInt32.xor_assoc, UInt32.xor_self,
      UInt32.xor_zero]
  have bits : ∀ i, (r ^^^ b.toUInt32 ^^^ (r.toUInt8 ^^^ b).toUInt32).toBitVec.getLsbD i =
      (decide (8 ≤ i) && r.toBitVec.getLsbD i) := by
    intro i
    simp only [UInt32.toBitVec_xor, UInt8.toBitVec_toUInt32, UInt8.toBitVec_xor,
      UInt32.toBitVec_toUInt8, BitVec.getLsbD_xor, BitVec.getLsbD_setWidth]
    by_cases low : i < 8
    · simp [low, show i < 32 by omega, Nat.not_le.2 low]
    · simp [low, Nat.not_lt.1 low]
  have low : ∀ i < 8,
      (r ^^^ b.toUInt32 ^^^ (r.toUInt8 ^^^ b).toUInt32).toBitVec.getLsbD i = false := by
    intro i hi
    rw [bits, decide_eq_false (Nat.not_le.2 hi), Bool.false_and]
  have rest : shiftByte (r ^^^ b.toUInt32 ^^^ (r.toUInt8 ^^^ b).toUInt32) = r >>> 8 := by
    rw [← UInt32.toBitVec_inj, shiftByte_eq_iterate]
    refine BitVec.eq_of_getLsbD_eq ?_
    intro i _
    rw [getLsbD_iterate_shiftBit low, bits]
    simp [Nat.add_comm]
  rw [cut, linear_shiftByte, rest, step, get_table]

/-- What has been fed before acts through as many shifts as bytes follow. -/
theorem foldl_step_xor (data : Bytes) (x y : UInt32) :
    data.foldl step (x ^^^ y) = shiftByte^[data.length] x ^^^ data.foldl step y := by
  induction data generalizing x y with
  | nil => rfl
  | cons b data ih =>
    have first : step (x ^^^ y) b = shiftByte x ^^^ step y b := by
      rw [step_eq_shiftByte, step_eq_shiftByte, UInt32.xor_assoc, linear_shiftByte]
    rw [List.foldl_cons, List.foldl_cons, first, ih, List.length_cons, Function.iterate_succ_apply]

end Crc32

theorem crc32_eq_iterate_xor (data : Bytes) (init : UInt32) :
    crc32 data init = Crc32.shiftByte^[data.length] init ^^^ crc32 data 0 := by
  have split : ~~~init = init ^^^ ~~~0 := by
    rw [UInt32.xor_not, UInt32.xor_zero]
  rw [crc32, split, Crc32.foldl_step_xor, ← UInt32.xor_not]
  rfl

namespace Crc32

/-! ## Maps given by the images of single bits -/

namespace Operator

theorem getLsbD_one_shiftLeft {i : Nat} (hi : i < 32) (j : Nat) :
    (1 <<< UInt32.ofNat i).toBitVec.getLsbD j = decide (i = j) := by
  have amount : i % 32 = i := Nat.mod_eq_of_lt hi
  have power : (1 <<< UInt32.ofNat i).toBitVec = BitVec.twoPow 32 i := by
    simp [BitVec.twoPow, amount]
  rw [power, BitVec.getLsbD_twoPow, decide_eq_true hi, Bool.true_and]

theorem get_ofFunction (f : UInt32 → UInt32) (i : Fin 32) :
    (ofFunction f).get i = f (1 <<< UInt32.ofNat i.val) :=
  Vector.getElem_ofFn i.isLt

/-- A linear map is applied by adding up the images of the bits that are set. -/
theorem applyFrom_ofFunction {f : UInt32 → UInt32} (linear : Linear f) (r : UInt32) (i : Nat) :
    applyFrom (ofFunction f) r i = f (applyFrom (ofFunction id) r i) := by
  induction i with
  | zero => exact linear.map_zero.symm
  | succ i ih =>
    rw [applyFrom, applyFrom, ih]
    by_cases hi : i < 32
    · rw [dif_pos hi, dif_pos hi, linear]
      by_cases bit : r.toBitVec.getLsbD i = true
      · rw [if_pos bit, if_pos bit, get_ofFunction, get_ofFunction, id]
      · rw [if_neg bit, if_neg bit, linear.map_zero]
    · rw [dif_neg hi, dif_neg hi]

theorem getLsbD_applyFrom_id (r : UInt32) {i : Nat} (hi : i ≤ 32) (j : Nat) :
    (applyFrom (ofFunction id) r i).toBitVec.getLsbD j =
      (decide (j < i) && r.toBitVec.getLsbD j) := by
  induction i with
  | zero => simp [applyFrom]
  | succ i ih =>
    rw [applyFrom, dif_pos (Nat.lt_of_succ_le hi), UInt32.toBitVec_xor, BitVec.getLsbD_xor,
      ih (Nat.le_of_succ_le hi), get_ofFunction, id]
    by_cases here : i = j
    · subst here
      cases bit : r.toBitVec.getLsbD i with
      | true =>
        rw [if_pos rfl, getLsbD_one_shiftLeft hi]
        simp
      | false => simp
    · have other : decide (j < i + 1) = decide (j < i) := by
        simp only [decide_eq_decide]
        omega
      rw [other]
      cases r.toBitVec.getLsbD i with
      | true => rw [if_pos rfl, getLsbD_one_shiftLeft hi, decide_eq_false here, Bool.false_xor]
      | false => simp

theorem apply_ofFunction {f : UInt32 → UInt32} (linear : Linear f) (r : UInt32) :
    (ofFunction f).apply r = f r := by
  have whole : applyFrom (ofFunction id) r 32 = r := by
    rw [← UInt32.toBitVec_inj]
    refine BitVec.eq_of_getLsbD_eq ?_
    intro j hj
    rw [getLsbD_applyFrom_id r (Nat.le_refl 32), decide_eq_true hj, Bool.true_and]
  rw [apply, applyFrom_ofFunction linear, whole]

theorem andThen_ofFunction {f g : UInt32 → UInt32} (hf : Linear f) (hg : Linear g) :
    (ofFunction f).andThen (ofFunction g) = ofFunction (g ∘ f) := by
  unfold andThen
  congr 1
  funext r
  rw [apply_ofFunction hg, apply_ofFunction hf, Function.comp_apply]

/-- Repeated squaring applies a map as often as it is asked to. -/
theorem applyTimes_ofFunction {f : UInt32 → UInt32} (linear : Linear f) (n : Nat) (r : UInt32) :
    (ofFunction f).applyTimes n r = f^[n] r := by
  induction n using Nat.strongRecOn generalizing f r with
  | ind n ih =>
    rw [applyTimes]
    by_cases none : n = 0
    · rw [if_pos none, none]
      rfl
    · have half := ih (n / 2) (Nat.div_lt_self (Nat.pos_of_ne_zero none) (by decide))
        (linear.comp linear) (if n % 2 = 1 then f r else r)
      rw [if_neg none, andThen_ofFunction linear linear, apply_ofFunction linear, half]
      have square : f ∘ f = f^[2] := rfl
      rw [square, ← Function.iterate_mul]
      by_cases odd : n % 2 = 1
      · rw [if_pos odd, ← Function.iterate_succ_apply]
        congr 1
        omega
      · rw [if_neg odd]
        congr 1
        omega

end Operator

/-- The checksum of a string goes on from what stands before it. -/
theorem combine_crc32 (data : Bytes) (init : UInt32) :
    combine init (crc32 data 0) data.length = crc32 data init := by
  unfold combine
  by_cases none : data.length = 0
  · rw [if_pos none, List.length_eq_zero_iff.1 none, crc32_nil]
  · rw [if_neg none, zeroByte, Operator.applyTimes_ofFunction linear_shiftByte,
      ← crc32_eq_iterate_xor]

/-- The checksum of a concatenation comes from the checksums of its parts. -/
theorem combine_append (first second : Bytes) :
    combine (crc32 first 0) (crc32 second 0) second.length = crc32 (first ++ second) 0 := by
  rw [combine_crc32, crc32_append]

end Crc32

end ParallelGzip
