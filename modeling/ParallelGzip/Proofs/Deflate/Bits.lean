import ParallelGzip.Deflate.Bits
import ParallelGzip.Deflate.Inflate
import ParallelGzip.Proofs.Stream.Reads

set_option autoImplicit false

/-! # Bits of numbers and of bytes

What `numberBits` writes is what `readBits` reads, and packing bits into bytes adds nothing to them
but the zeros that fill up the last byte. -/

namespace ParallelGzip

open ParallelGzip.Parser (Reads)

namespace Deflate

/-! ## Numbers -/

theorem reads_readBits (n value : Nat) (fits : value < Nat.pow 2 n) :
    (readBits n).Reads (numberBits n value) ⟨value, fits⟩ := by
  induction n generalizing value with
  | zero =>
    obtain rfl : value = 0 := Nat.lt_one_iff.1 fits
    exact .done _
  | succ n ih =>
    have double : Nat.pow 2 (n + 1) = Nat.pow 2 n * 2 := rfl
    refine .need ((ih (value / 2) (by omega)).bind_done ?_)
    have whole : (decide (value % 2 = 1)).toNat + 2 * (value / 2) = value := by
      rcases Nat.mod_two_eq_zero_or_one value with even | odd
      · simp only [even, Nat.zero_ne_one, decide_false, Bool.toNat_false]
        omega
      · simp only [odd, decide_true, Bool.toNat_true]
        omega
    simp only [whole]

/-- The lowest bit comes first. -/
theorem numberBits_succ (n m : Nat) (bit : Bool) :
    numberBits (n + 1) (bit.toNat + 2 * m) = bit :: numberBits n m := by
  have low : decide ((bit.toNat + 2 * m) % 2 = 1) = bit := by
    rw [Nat.add_mul_mod_self_left]
    cases bit <;> rfl
  have high : (bit.toNat + 2 * m) / 2 = m := by
    have small : bit.toNat < 2 := by cases bit <;> decide
    omega
  rw [numberBits, low, high]

/-- Nothing but its bits is read as a number. -/
theorem bits_of_reads_readBits {n : Nat} {bits : List Bool} {value : Fin (Nat.pow 2 n)}
    (reads : (readBits n).Reads bits value) : bits = numberBits n value := by
  induction n generalizing bits with
  | zero =>
    cases reads
    rfl
  | succ n ih =>
    cases reads with
    | @need _ _ bit bits _ more =>
      obtain ⟨first, second, rest, rfl, before, behind⟩ := Parser.Reads.of_bind more
      cases behind
      rw [numberBits_succ, ← ih before, List.append_nil]

/-- The number with these bits, lowest first. -/
def bitsNumber (bits : List Bool) : Nat := bits.foldr (fun bit n => bit.toNat + 2 * n) 0

theorem numberBits_zero (n : Nat) : numberBits n 0 = List.replicate n false := by
  induction n with
  | zero => rfl
  | succ n ih => rw [numberBits, Nat.zero_div, ih, List.replicate_succ]; rfl

theorem numberBits_bitsNumber {n : Nat} {bits : List Bool} (fits : bits.length ≤ n) :
    numberBits n (bitsNumber bits) = bits ++ List.replicate (n - bits.length) false := by
  induction bits generalizing n with
  | nil => exact numberBits_zero n
  | cons bit bits ih =>
    obtain ⟨m, rfl⟩ : ∃ m, n = m + 1 := Nat.exists_eq_succ_of_ne_zero (by
      rintro rfl
      simp at fits)
    have cons : bitsNumber (bit :: bits) = bit.toNat + 2 * bitsNumber bits := rfl
    rw [cons, numberBits_succ, ih (Nat.le_of_succ_le_succ fits), List.length_cons,
      Nat.add_sub_add_right, List.cons_append]

theorem numberBits_add (m n value : Nat) :
    numberBits (m + n) value = numberBits m value ++ numberBits n (value / Nat.pow 2 m) := by
  induction m generalizing value with
  | zero =>
    rw [Nat.zero_add, numberBits, List.nil_append, show Nat.pow 2 0 = 1 from rfl, Nat.div_one]
  | succ m ih =>
    have double : Nat.pow 2 (m + 1) = 2 * Nat.pow 2 m := Nat.pow_succ'
    rw [Nat.add_right_comm, numberBits, numberBits, ih, List.cons_append, double,
      Nat.div_div_eq_div_mul]

theorem numberBits_mod (n value : Nat) :
    numberBits n (value % Nat.pow 2 n) = numberBits n value := by
  induction n generalizing value with
  | zero => rfl
  | succ n ih =>
    have double : Nat.pow 2 (n + 1) = 2 * Nat.pow 2 n := Nat.pow_succ'
    rw [numberBits, numberBits, double, Nat.mod_mul_right_mod, Nat.mod_mul_right_div_self, ih]

/-! ## Bytes -/

theorem bitsOfByte_ofNat (n : Nat) : bitsOfByte (UInt8.ofNat n) = numberBits 8 n := by
  have small : ∀ m < 256, bitsOfByte (UInt8.ofNat m) = numberBits 8 m := by decide +kernel
  have low : UInt8.ofNat (n % 256) = UInt8.ofNat n := UInt8.toNat_inj.1 (by simp)
  rw [← low, small _ (Nat.mod_lt _ (by decide)), show 256 = Nat.pow 2 8 from rfl, numberBits_mod]

theorem bitsOfByte_byteOfBits {bits : List Bool} (fits : bits.length ≤ 8) :
    bitsOfByte (byteOfBits bits) = bits ++ List.replicate (8 - bits.length) false := by
  rw [byteOfBits, bitsOfByte_ofNat]
  exact numberBits_bitsNumber fits

/-- The bits of some bytes, one after the other. -/
def bitsOfBytes (bytes : Bytes) : List Bool := bytes.flatMap bitsOfByte

@[simp] theorem bitsOfBytes_cons (b : UInt8) (bytes : Bytes) :
    bitsOfBytes (b :: bytes) = bitsOfByte b ++ bitsOfBytes bytes := List.flatMap_cons

@[simp] theorem bitsOfBytes_append (first second : Bytes) :
    bitsOfBytes (first ++ second) = bitsOfBytes first ++ bitsOfBytes second := List.flatMap_append

theorem length_bitsOfBytes (bytes : Bytes) : (bitsOfBytes bytes).length = 8 * bytes.length := by
  induction bytes with
  | nil => rfl
  | cons b bytes ih =>
    rw [bitsOfBytes_cons, List.length_append, ih, length_bitsOfByte, List.length_cons]
    omega

theorem bitsOfBytes_littleEndian (width n : Nat) :
    bitsOfBytes (Bytes.littleEndian width n) = numberBits (8 * width) n := by
  induction width generalizing n with
  | zero => rfl
  | succ width ih =>
    rw [Bytes.littleEndian, bitsOfBytes_cons, bitsOfByte_ofNat, ih, Nat.mul_succ, Nat.add_comm,
      numberBits_add]

theorem byteOfBits_bitsOfByte (b : UInt8) : byteOfBits (bitsOfByte b) = b := by
  have all : ∀ n < 256, byteOfBits (bitsOfByte (UInt8.ofNat n)) = UInt8.ofNat n := by
    decide +kernel
  rw [← UInt8.ofNat_toNat (x := b)]
  exact all b.toNat b.toNat_lt

/-- The bits of bytes begin with those of other bytes only where the bytes do. -/
theorem exists_of_bitsOfBytes_eq {whole front : Bytes} {more : List Bool}
    (bits : bitsOfBytes whole = bitsOfBytes front ++ more) :
    ∃ rest, whole = front ++ rest ∧ bitsOfBytes rest = more := by
  induction front generalizing whole with
  | nil => exact ⟨whole, rfl, bits⟩
  | cons b front ih =>
    cases whole with
    | nil => cases bits
    | cons c whole =>
      rw [bitsOfBytes_cons, bitsOfBytes_cons, List.append_assoc] at bits
      obtain ⟨same, later⟩ := List.append_inj bits rfl
      obtain ⟨rest, rfl, behind⟩ := ih later
      refine ⟨rest, ?_, behind⟩
      rw [← byteOfBits_bitsOfByte c, same, byteOfBits_bitsOfByte, List.cons_append]

theorem bitsOfBytes_injective {first second : Bytes}
    (bits : bitsOfBytes first = bitsOfBytes second) : first = second := by
  obtain ⟨rest, rfl, none⟩ :=
    exists_of_bitsOfBytes_eq (bits.trans (List.append_nil (bitsOfBytes second)).symm)
  have count := congrArg List.length none
  rw [length_bitsOfBytes, List.length_nil] at count
  rw [List.length_eq_zero_iff.1 (show rest.length = 0 by omega), List.append_nil]

/-- Bits that end with the bits of some bytes are those of bytes that end with these. -/
theorem exists_of_bitsOfBytes_eq_append {whole behind : Bytes} {bits : List Bool}
    (split : bitsOfBytes whole = bits ++ bitsOfBytes behind) :
    ∃ front, whole = front ++ behind ∧ bitsOfBytes front = bits := by
  have count := congrArg List.length split
  rw [List.length_append, length_bitsOfBytes, length_bitsOfBytes] at count
  have parts := bitsOfBytes_append (whole.take (whole.length - behind.length))
    (whole.drop (whole.length - behind.length))
  rw [List.take_append_drop, split] at parts
  have sizes : (bitsOfBytes (whole.take (whole.length - behind.length))).length = bits.length := by
    rw [length_bitsOfBytes, List.length_take]
    omega
  obtain ⟨front, rear⟩ := List.append_inj parts sizes.symm
  have rear := bitsOfBytes_injective rear
  exact ⟨_, (List.take_append_drop _ whole).symm.trans (congrArg _ rear.symm), front.symm⟩

/-! ## Packing -/

/-- How many zeros fill up the last byte behind so many bits. -/
def padding (n : Nat) : Nat := (8 - n % 8) % 8

theorem padding_lt (n : Nat) : padding n < 8 := Nat.mod_lt _ (by decide)

theorem bitsOfBytes_packOnto (acc : Array UInt8) (bits : List Bool) :
    bitsOfBytes (packOnto acc bits).toList =
      bitsOfBytes acc.toList ++ bits ++ List.replicate (padding bits.length) false := by
  fun_induction packOnto acc bits with
  | case1 acc b0 b1 b2 b3 b4 b5 b6 b7 bits ih =>
    have whole : bitsOfByte (byteOfBits [b0, b1, b2, b3, b4, b5, b6, b7]) =
        [b0, b1, b2, b3, b4, b5, b6, b7] := bitsOfByte_byteOfBits (Nat.le_refl 8)
    have same : padding (b0 :: b1 :: b2 :: b3 :: b4 :: b5 :: b6 :: b7 :: bits).length =
        padding bits.length := by
      simp only [padding, List.length_cons]
      omega
    rw [ih, same, Array.toList_push, bitsOfBytes_append, bitsOfBytes_cons, whole]
    simp [bitsOfBytes]
  | case2 acc => simp [padding]
  | case3 acc bits long nonempty =>
    have some : bits.length ≠ 0 := fun none => nonempty (List.length_eq_zero_iff.1 none)
    -- there is an eighth bit only in the first case
    have few : bits.length < 8 := by
      rcases bits with _ | ⟨b0, _ | ⟨b1, _ | ⟨b2, _ | ⟨b3, _ | ⟨b4, _ | ⟨b5, _ | ⟨b6, _ |
        ⟨b7, more⟩⟩⟩⟩⟩⟩⟩⟩
      · decide
      all_goals first
        | exact (long b0 b1 b2 b3 b4 b5 b6 b7 more rfl).elim
        | simp
    have missing : padding bits.length = 8 - bits.length := by
      unfold padding
      omega
    rw [Array.toList_push, bitsOfBytes_append, bitsOfBytes_cons,
      bitsOfByte_byteOfBits (Nat.le_of_lt few), missing]
    simp [bitsOfBytes]

/-- The bits of packed bits are the bits and the zeros behind them. -/
theorem bitsOfBytes_pack (bits : List Bool) :
    bitsOfBytes (pack bits) = bits ++ List.replicate (padding bits.length) false := by
  rw [pack, bitsOfBytes_packOnto]
  rfl

end Deflate

end ParallelGzip
