import Mathlib.Data.List.DropRight
import Mathlib.Data.Nat.Digits.Defs
import ParallelGzip.Options

set_option autoImplicit false

/-! # Thread counts: which texts say one

Between blanks a text says a count by the word `auto` or by a numeral, which is a sign or none and
then decimal digits. Numerals are read as numbers of 64 bits with a sign. So a count that needs the
highest bit of a size is refused with the words for a text that is no number at all, and so is a
negative number that is too low. -/

namespace ParallelGzip

/-! ## Between blanks -/

/-- What is left of a text without the blanks around it. -/
structure Trims (text trimmed : List Char) : Prop where
  around : ∃ before after, text = before ++ (trimmed ++ after) ∧
    (∀ c ∈ before, isBlank c = true) ∧ ∀ c ∈ after, isBlank c = true
  first : ∀ some : trimmed ≠ [], isBlank (trimmed.head some) = false
  last : ∀ some : trimmed ≠ [], isBlank (trimmed.getLast some) = false

theorem trimBlanks_eq (text : List Char) :
    trimBlanks text = (text.dropWhile isBlank).rdropWhile isBlank := rfl

theorem trims_trimBlanks (text : List Char) : Trims text (trimBlanks text) where
  around := by
    refine ⟨text.takeWhile isBlank, (text.dropWhile isBlank).rtakeWhile isBlank, ?_,
      fun c => List.mem_takeWhile_imp, fun c => List.mem_rtakeWhile_imp⟩
    rw [trimBlanks_eq, List.rdropWhile_append_rtakeWhile, List.takeWhile_append_dropWhile]
  first some := by
    have front : trimBlanks text <+: text.dropWhile isBlank := List.rdropWhile_prefix _ _
    rw [front.head some]
    exact List.head_dropWhile_not _ _
  last some := Bool.eq_false_iff.2 (List.rdropWhile_last_not isBlank (text.dropWhile isBlank) some)

theorem rdropWhile_append_of_pos {p : Char → Bool} {text after : List Char}
    (all : ∀ c ∈ after, p c = true) : (text ++ after).rdropWhile p = text.rdropWhile p := by
  rw [List.rdropWhile, List.rdropWhile, List.reverse_append, List.dropWhile_append_of_pos]
  exact fun c member => all c (List.mem_reverse.1 member)

/-- There is one way to trim a text. -/
theorem trims_iff {text trimmed : List Char} : Trims text trimmed ↔ trimmed = trimBlanks text := by
  constructor
  · rintro ⟨⟨before, after, rfl, blank, blank'⟩, first, last⟩
    rw [trimBlanks_eq, List.dropWhile_append_of_pos blank]
    by_cases none : trimmed = []
    · rw [none, List.nil_append, List.dropWhile_eq_nil_iff.2 blank', List.rdropWhile_nil]
    · have front : (trimmed ++ after).dropWhile isBlank = trimmed ++ after := by
        rw [List.dropWhile_eq_self_iff]
        intro some
        rw [← List.head_eq_getElem (List.length_pos_iff.1 some), List.head_append_of_ne_nil none,
          first none]
        exact Bool.false_ne_true
      have back : trimmed.rdropWhile isBlank = trimmed := by
        rw [List.rdropWhile_eq_self_iff]
        intro some
        rw [last some]
        exact Bool.false_ne_true
      rw [front, rdropWhile_append_of_pos blank', back]
  · rintro rfl
    exact trims_trimBlanks text

/-! ## Words and numerals -/

namespace Threads

/-- The word `auto`, in any letter case. -/
def IsAuto (text : List Char) : Prop :=
  ∃ a u t o, text = [a, u, t, o] ∧ a ∈ ['a', 'A'] ∧ u ∈ ['u', 'U'] ∧ t ∈ ['t', 'T'] ∧ o ∈ ['o', 'O']

/-- Decimal digits, at least one, that write `n` by place value. -/
structure Digits (digits : List Char) (n : Nat) : Prop where
  some : digits ≠ []
  decimal : ∀ c ∈ digits, c.isDigit = true
  value : Nat.ofDigits 10 (digits.reverse.map fun c => c.toNat - '0'.toNat) = n

/-- A sign or none and then decimal digits, which write a number. -/
inductive Numeral : List Char → Int → Prop
  | unsigned {digits : List Char} {n : Nat} (written : Digits digits n) : Numeral digits n
  | positive {digits : List Char} {n : Nat} (written : Digits digits n) : Numeral ('+' :: digits) n
  | negative {digits : List Char} {n : Nat} (written : Digits digits n) :
      Numeral ('-' :: digits) (-n)

/-- What a text without blanks around it says. -/
inductive Means (text : List Char) : Threads → Prop
  | word (auto : IsAuto text) : Means text .auto
  | negative {n : Int} (numeral : Numeral text n) (low : -2 ^ 63 ≤ n) (negative : n < 0) :
      Means text .auto
  | count {n : Nat} (numeral : Numeral text n) (fits : n < 2 ^ 63) : Means text (.fixed n)

theorem toNat_toLower (c : Char) :
    c.toLower.toNat = if 65 ≤ c.toNat ∧ c.toNat ≤ 90 then c.toNat + 32 else c.toNat := by
  have capital : c.val ≥ 'A'.val ∧ c.val ≤ 'Z'.val ↔ 65 ≤ c.toNat ∧ c.toNat ≤ 90 := Iff.rfl
  by_cases h : 65 ≤ c.toNat ∧ c.toNat ≤ 90
  · have small : c.toNat + 32 < 2 ^ 32 := by omega
    rw [if_pos h]
    refine (congrArg Char.toNat (dif_pos (capital.2 h))).trans ?_
    exact (UInt32.toNat_add c.val 32).trans (Nat.mod_eq_of_lt small)
  · rw [if_neg h]
    exact congrArg Char.toNat (dif_neg (mt capital.1 h))

theorem toLower_eq_iff {c lower upper : Char} (small : 97 ≤ lower.toNat ∧ lower.toNat ≤ 122)
    (capital : upper.toNat + 32 = lower.toNat) : c.toLower = lower ↔ c ∈ [lower, upper] := by
  rw [List.mem_pair, ← Char.toNat_inj, ← Char.toNat_inj, ← Char.toNat_inj, toNat_toLower]
  split <;> omega

theorem isAutoWord_iff {text : List Char} : isAutoWord text = true ↔ IsAuto text := by
  have same : isAutoWord text = true ↔ text.map Char.toLower = ['a', 'u', 't', 'o'] := by
    rw [isAutoWord, decide_eq_true_iff]
  rw [same]
  constructor
  · intro lower
    obtain ⟨a, text, rfl, ha, lower⟩ := List.map_eq_cons_iff.1 lower
    obtain ⟨u, text, rfl, hu, lower⟩ := List.map_eq_cons_iff.1 lower
    obtain ⟨t, text, rfl, ht, lower⟩ := List.map_eq_cons_iff.1 lower
    obtain ⟨o, text, rfl, ho, lower⟩ := List.map_eq_cons_iff.1 lower
    obtain rfl := List.map_eq_nil_iff.1 lower
    exact ⟨a, u, t, o, rfl, (toLower_eq_iff (by decide) (by decide)).1 ha,
      (toLower_eq_iff (by decide) (by decide)).1 hu, (toLower_eq_iff (by decide) (by decide)).1 ht,
      (toLower_eq_iff (by decide) (by decide)).1 ho⟩
  · rintro ⟨a, u, t, o, rfl, ha, hu, ht, ho⟩
    rw [List.map_cons, List.map_cons, List.map_cons, List.map_cons, List.map_nil,
      (toLower_eq_iff (by decide) (by decide)).2 ha, (toLower_eq_iff (by decide) (by decide)).2 hu,
      (toLower_eq_iff (by decide) (by decide)).2 ht, (toLower_eq_iff (by decide) (by decide)).2 ho]

theorem foldl_digits (digits : List Char) :
    digits.foldl (fun n c => 10 * n + (c.toNat - '0'.toNat)) 0 =
      Nat.ofDigits 10 (digits.reverse.map fun c => c.toNat - '0'.toNat) := by
  induction digits using List.reverseRecOn with
  | nil => rfl
  | append_singleton digits c ih =>
    rw [List.foldl_append, List.foldl_cons, List.foldl_nil, ih, List.reverse_append,
      List.reverse_singleton, List.singleton_append, List.map_cons, Nat.ofDigits_cons, Nat.add_comm]

theorem numeral?_eq_some_iff {digits : List Char} {n : Nat} :
    numeral? digits = some n ↔ Digits digits n := by
  rw [numeral?, foldl_digits]
  constructor
  · intro read
    split at read
    · next valid =>
      rw [Bool.and_eq_true, decide_eq_true_iff, List.all_eq_true] at valid
      exact ⟨valid.1, valid.2, Option.some.inj read⟩
    · cases read
  · rintro ⟨some, decimal, value⟩
    rw [if_pos, value]
    rw [Bool.and_eq_true, decide_eq_true_iff, List.all_eq_true]
    exact ⟨some, decimal⟩

/-- What a sign makes of the number behind it. -/
theorem signed_eq_some_iff {read : Option Nat} {sign : Int → Int} {n : Int} :
    (do
      let value ← read
      pure (value : Int)).map sign = some n ↔
      ∃ value : Nat, read = some value ∧ sign value = n := by
  cases read <;> simp

theorem integer?_eq_some_iff {text : List Char} {n : Int} :
    integer? text = some n ↔ Numeral text n := by
  constructor
  · intro read
    unfold integer? at read
    split at read
    all_goals
      obtain ⟨value, digits, rfl⟩ := signed_eq_some_iff.1 read
      have written := numeral?_eq_some_iff.1 digits
    · exact .negative written
    · exact .positive written
    · exact .unsigned written
  · intro numeral
    cases numeral with
    | positive written | negative written =>
      exact signed_eq_some_iff.2 ⟨_, numeral?_eq_some_iff.2 written, rfl⟩
    | unsigned written =>
      unfold integer?
      split
      · exact absurd (written.decimal '-' List.mem_cons_self) (by decide)
      · exact absurd (written.decimal '+' List.mem_cons_self) (by decide)
      · exact signed_eq_some_iff.2 ⟨_, numeral?_eq_some_iff.2 written, rfl⟩

/-- A text writes one number at most. -/
theorem Numeral.unique {text : List Char} {m n : Int} (numeral : Numeral text m)
    (again : Numeral text n) : m = n :=
  Option.some.inj <|
    (integer?_eq_some_iff.2 numeral).symm.trans (integer?_eq_some_iff.2 again)

/-- The word is no numeral. -/
theorem IsAuto.not_numeral {text : List Char} {n : Int} (auto : IsAuto text) :
    ¬Numeral text n := by
  obtain ⟨a, u, t, o, rfl, -, hu, -⟩ := auto
  have letter : u.isDigit = false := by
    rcases List.mem_pair.1 hu with rfl | rfl <;> rfl
  have refute : ∀ {digits : List Char} {n : Nat}, Digits digits n → u ∉ digits := by
    intro digits n written member
    rw [written.decimal u member] at letter
    cases letter
  intro numeral
  cases numeral with
  | unsigned written => exact refute written (by simp)
  | positive written => exact refute written (by simp)
  | negative written => exact refute written (by simp)

/-! ## What a text says -/

/-- What is reported of a text that says nothing. -/
def refusal (trimmed : List Char) : Error :=
  .invalidMode ("thread count must be a number or 'auto', got " ++ quoted (String.ofList trimmed))

variable {text : String} {trimmed : List Char} {threads other : Threads}

theorem Means.unique (means : Means trimmed threads) (again : Means trimmed other) :
    threads = other := by
  cases means with
  | word auto =>
    cases again with
    | word => rfl
    | negative => rfl
    | count numeral => exact absurd numeral auto.not_numeral
  | negative numeral _ negative =>
    cases again with
    | word => rfl
    | negative => rfl
    | count numeral' =>
      have same := numeral.unique numeral'
      omega
  | count numeral =>
    cases again with
    | word auto => exact absurd numeral auto.not_numeral
    | negative numeral' _ negative =>
      have same := numeral.unique numeral'
      omega
    | count numeral' => exact congrArg fixed (Int.ofNat_inj.1 (numeral.unique numeral'))

/-- A number that 64 bits with a sign can hold says a count, and no other does. -/
theorem Numeral.means_iff {n : Int} (numeral : Numeral trimmed n) :
    Means trimmed threads ↔ (-2 ^ 63 ≤ n ∧ n < 2 ^ 63) ∧
      threads = if n < 0 then auto else fixed n.toNat := by
  constructor
  · intro means
    cases means with
    | word auto => exact absurd numeral auto.not_numeral
    | negative numeral' low negative =>
      obtain rfl := numeral.unique numeral'
      exact ⟨⟨low, by omega⟩, (if_pos negative).symm⟩
    | @count m numeral' fits =>
      obtain rfl := numeral.unique numeral'
      refine ⟨by omega, ?_⟩
      rw [if_neg (by omega), Int.toNat_natCast]
  · rintro ⟨⟨low, high⟩, rfl⟩
    split
    · next negative => exact .negative numeral low negative
    · next natural =>
      have cast : ((n.toNat : Nat) : Int) = n := Int.toNat_of_nonneg (by omega)
      exact .count (cast.symm ▸ numeral) (by omega)

theorem parse_of_auto (trims : trimBlanks text.toList = trimmed) (word : IsAuto trimmed) :
    parse text = .ok auto := by
  rw [parse, trims]
  exact if_pos (isAutoWord_iff.2 word)

theorem parse_of_not_auto (trims : trimBlanks text.toList = trimmed) (word : ¬IsAuto trimmed) :
    parse text =
      match integer? trimmed with
      | none => .error (refusal trimmed)
      | some n =>
        if n < -0x8000000000000000 || 0x8000000000000000 ≤ n then .error (refusal trimmed)
        else if n < 0 then .ok auto
        else .ok (fixed n.toNat) := by
  rw [parse, trims]
  exact if_neg (mt isAutoWord_iff.1 word)

/-- Every text is judged. -/
theorem parse_cases (trims : trimBlanks text.toList = trimmed) :
    (∃ threads, Means trimmed threads ∧ parse text = .ok threads) ∨
      (∀ threads, ¬Means trimmed threads) ∧ parse text = .error (refusal trimmed) := by
  by_cases word : IsAuto trimmed
  · exact .inl ⟨auto, .word word, parse_of_auto trims word⟩
  rw [parse_of_not_auto trims word]
  cases read : integer? trimmed with
  | none =>
    have number : ∀ n, ¬Numeral trimmed n := by
      intro n numeral
      rw [integer?_eq_some_iff.2 numeral] at read
      cases read
    refine .inr ⟨fun threads means => ?_, rfl⟩
    cases means with
    | word auto => exact word auto
    | negative numeral | count numeral => exact number _ numeral
  | some n =>
    have numeral := integer?_eq_some_iff.1 read
    have fits : (n < -0x8000000000000000 || 0x8000000000000000 ≤ n) = true ↔
        ¬(-2 ^ 63 ≤ n ∧ n < 2 ^ 63) := by
      rw [Bool.or_eq_true, decide_eq_true_iff, decide_eq_true_iff]
      omega
    dsimp only
    by_cases inside : -2 ^ 63 ≤ n ∧ n < 2 ^ 63
    · rw [if_neg fun out => fits.1 out inside]
      refine .inl ⟨_, numeral.means_iff.2 ⟨inside, rfl⟩, ?_⟩
      split <;> rfl
    · rw [if_pos (fits.2 inside)]
      exact .inr ⟨fun threads means => inside (numeral.means_iff.1 means).1, rfl⟩

/-- A text is read as a count just if it means that count between its blanks: the word `auto` in any
    letter case, or a numeral for a number that 64 bits with a sign can hold, where negative numbers
    mean what the word means. Every other text is refused as an invalid mode, with what is left of
    it between the blanks. -/
theorem parse_meaning (text : String) :
    ∃ trimmed, (∀ other, Trims text.toList other ↔ other = trimmed) ∧
      (∀ threads, parse text = .ok threads ↔ Means trimmed threads) ∧
      ∀ failure, parse text = .error failure ↔
        (∀ threads, ¬Means trimmed threads) ∧ failure = refusal trimmed := by
  refine ⟨trimBlanks text.toList, fun other => trims_iff, ?_⟩
  rcases parse_cases (rfl : trimBlanks text.toList = _) with ⟨found, means, parsed⟩ | ⟨none, parsed⟩
  · rw [parsed]
    refine ⟨fun threads => ?_, fun failure => iff_of_false (by simp) fun out => out.1 found means⟩
    rw [Except.ok.injEq]
    exact ⟨fun same => same ▸ means, fun again => means.unique again⟩
  · rw [parsed]
    refine ⟨fun threads => iff_of_false (by simp) (none threads), fun failure => ?_⟩
    rw [Except.error.injEq, eq_comm]
    exact ⟨fun same => ⟨none, same⟩, fun out => out.2⟩

/-- A numeral for a number that 64 bits with a sign cannot hold is refused. -/
theorem parse_of_far {n : Int} (trims : trimBlanks text.toList = trimmed)
    (numeral : Numeral trimmed n) (far : ¬(-2 ^ 63 ≤ n ∧ n < 2 ^ 63)) :
    parse text = .error (refusal trimmed) := by
  rcases parse_cases trims with ⟨threads, means, -⟩ | ⟨-, parsed⟩
  · exact absurd (numeral.means_iff.1 means).1 far
  · exact parsed

/-- The first count that needs the highest bit of a size and the first negative number that is too
    low are refused like a text that is no number. -/
theorem far_numerals_refused :
    (∃ n : Nat, n ≤ maxSize ∧ Numeral "9223372036854775808".toList n ∧
      parse "9223372036854775808" = .error (refusal "9223372036854775808".toList)) ∧
    ∃ n : Int, n < 0 ∧ Numeral "-9223372036854775809".toList n ∧
      parse "-9223372036854775809" = .error (refusal "-9223372036854775809".toList) := by
  have count : Numeral "9223372036854775808".toList (2 ^ 63 : Nat) :=
    integer?_eq_some_iff.1 (by decide)
  have negative : Numeral "-9223372036854775809".toList (-(2 ^ 63 + 1)) :=
    integer?_eq_some_iff.1 (by decide)
  exact ⟨⟨2 ^ 63, by decide, count, parse_of_far (by decide) count (by omega)⟩,
    ⟨-(2 ^ 63 + 1), by decide, negative, parse_of_far (by decide) negative (by omega)⟩⟩

end Threads

end ParallelGzip
