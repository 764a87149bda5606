import ParallelGzip.Deflate.Words
import ParallelGzip.Proofs.Stream.Reads

set_option autoImplicit false

/-! # Words of a prefix code

The word of a symbol is the way to its leaf, so whatever tree is taken for a code, reading a word
with it gives the symbol back. A tree made of code lengths has no word without bits, and a word only
for symbols that have a length. -/

namespace ParallelGzip

namespace Deflate

namespace Tree

variable {tree : Tree} {symbol : Nat} {word : List Bool} {lengths : List Nat}

/-! ## Reading a word -/

theorem reads_decode (unknown : Defect) (found : tree.word? symbol = some word) :
    (tree.decode unknown).Reads word symbol := by
  induction tree generalizing word with
  | empty => cases found
  | leaf s =>
    rw [word?] at found
    by_cases same : s = symbol
    · rw [if_pos same] at found
      cases found
      rw [same]
      exact .done symbol
    · rw [if_neg same] at found
      cases found
  | node zero one ihZero ihOne =>
    rw [word?] at found
    cases left : zero.word? symbol with
    | some rest =>
      rw [left] at found
      cases found
      exact .need (ihZero left)
    | none =>
      rw [left] at found
      obtain ⟨rest, right, rfl⟩ := Option.map_eq_some_iff.1 found
      exact .need (ihOne right)

/-- Behind the first bit, the rest of a word is read with the branch that the bit chooses. -/
theorem reads_branch (unknown : Defect) {bit : Bool}
    (found : tree.word? symbol = some (bit :: word)) :
    ((tree.branch bit).decode unknown).Reads word symbol := by
  have whole := reads_decode unknown found
  cases tree with
  | empty => cases whole
  | leaf s => cases whole
  | node zero one =>
    cases whole with
    | need rest => cases bit <;> exact rest

theorem reads_read (unknown : Defect) (found : tree.word? symbol = some word)
    (nonempty : word ≠ []) : (tree.read unknown).Reads word symbol := by
  cases word with
  | nil => exact absurd rfl nonempty
  | cons bit word => exact .need (reads_branch unknown found)

/-! ## Trees made of code lengths -/

/-- Only symbols that have been placed have a word, and only codes that were to be placed are left
    over. -/
theorem place_spec (fuel depth : Nat) (codes : List (Nat × Nat)) :
    (∀ symbol word, (place fuel depth codes).1.word? symbol = some word →
      ∃ length, (length, symbol) ∈ codes) ∧ ∀ code ∈ (place fuel depth codes).2, code ∈ codes := by
  fun_induction place fuel depth codes with
  | case1 =>
    refine ⟨?_, fun _ left => left⟩
    intro symbol word found
    cases found
  | case2 =>
    refine ⟨?_, fun _ left => left⟩
    intro symbol word found
    cases found
  | case3 fuel depth length s codes here =>
    refine ⟨?_, fun _ left => List.mem_cons_of_mem _ left⟩
    intro symbol word found
    rw [word?] at found
    by_cases same : s = symbol
    · exact ⟨length, same ▸ List.mem_cons_self⟩
    · rw [if_neg same] at found
      cases found
  | case4 fuel depth length s codes deeper zero codes₀ hzero one codes₁ hone ihZero ihOne =>
    rw [hzero] at ihZero
    rw [hone] at ihOne
    refine ⟨?_, fun code left => ihZero.2 code (ihOne.2 code left)⟩
    intro symbol word found
    rw [word?] at found
    cases left : zero.word? symbol with
    | some rest => exact ihZero.1 symbol rest left
    | none =>
      -- what is placed on the right was left over on the left
      rw [left] at found
      obtain ⟨rest, right, -⟩ := Option.map_eq_some_iff.1 found
      obtain ⟨length, placed⟩ := ihOne.1 symbol rest right
      exact ⟨length, ihZero.2 _ placed⟩

/-- A code that was to be placed is left over, or its symbol has a word. -/
theorem left_or_isSome_word?_place (fuel depth : Nat) (codes : List (Nat × Nat)) :
    ∀ code ∈ codes, code ∈ (place fuel depth codes).2 ∨
      ((place fuel depth codes).1.word? code.2).isSome = true := by
  fun_induction place fuel depth codes with
  | case1 => exact nofun
  | case2 => exact fun _ listed => .inl listed
  | case3 fuel depth length s codes here =>
    intro code listed
    rcases List.mem_cons.1 listed with rfl | left
    · right
      rw [word?, if_pos rfl]
      rfl
    · exact .inl left
  | case4 fuel depth length s codes deeper zero codes₀ hzero one codes₁ hone ihZero ihOne =>
    rw [hzero] at ihZero
    rw [hone] at ihOne
    intro code listed
    rw [word?]
    cases left : zero.word? code.2 with
    | some rest => exact .inr rfl
    | none =>
      -- what has no place on the left is left over for the right
      have rest := (ihZero code listed).resolve_right (by simp [left])
      exact (ihOne code rest).imp_right Option.isSome_map.trans

/-- A tree of codes that have bits is not a leaf. -/
theorem word?_place_ne_nil {fuel : Nat} {codes : List (Nat × Nat)}
    (long : ∀ code ∈ codes, 0 < code.1)
    (found : (place fuel 0 codes).1.word? symbol = some word) : word ≠ [] := by
  unfold place at found
  split at found
  · cases found
  · cases found
  · next length s codes =>
    have some : ¬length ≤ 0 := Nat.not_le.2 (long _ List.mem_cons_self)
    rw [if_neg some] at found
    simp only [word?] at found
    split at found
    · cases found
      simp
    · obtain ⟨rest, -, rfl⟩ := Option.map_eq_some_iff.1 found
      simp

theorem mem_canonicalOrder {code : Nat × Nat} :
    code ∈ canonicalOrder lengths ↔
      0 < code.1 ∧ code.1 ≤ maxCodeLength ∧ lengths[code.2]? = some code.1 := by
  simp only [canonicalOrder, List.mem_flatMap, List.mem_range, List.mem_filter,
    List.mem_zipIdx_iff_getElem?, decide_eq_true_eq]
  constructor
  · rintro ⟨shorter, few, listed, length⟩
    exact ⟨by omega, by omega, listed⟩
  · rintro ⟨some, few, listed⟩
    exact ⟨code.1 - 1, by omega, listed, by omega⟩

/-- What is known of a word in the canonical code of some lengths. -/
theorem of_word?_ofLengths (made : ofLengths? lengths = some tree)
    (found : tree.word? symbol = some word) :
    word ≠ [] ∧ ∃ length, 0 < length ∧ lengths[symbol]? = some length := by
  unfold ofLengths? at made
  split at made
  · next placed =>
    cases made
    have tree : tree = (place (maxCodeLength + 1) 0 (canonicalOrder lengths)).1 := by rw [placed]
    rw [tree] at found
    refine ⟨word?_place_ne_nil (fun code listed => (mem_canonicalOrder.1 listed).1) found, ?_⟩
    obtain ⟨length, listed⟩ := (place_spec _ _ _).1 symbol word found
    obtain ⟨some, -, has⟩ := mem_canonicalOrder.1 listed
    exact ⟨length, some, has⟩
  · cases made

/-- If all codes find a place, each symbol has a word. -/
theorem isSome_word?_of_placed
    (placed : (place (maxCodeLength + 1) 0 (canonicalOrder lengths)).2 = [])
    (coded : ∀ length ∈ lengths, 0 < length ∧ length ≤ maxCodeLength)
    (inside : symbol < lengths.length) :
    ((place (maxCodeLength + 1) 0 (canonicalOrder lengths)).1.word? symbol).isSome = true := by
  have length := coded _ (List.getElem_mem inside)
  have listed : (lengths[symbol], symbol) ∈ canonicalOrder lengths :=
    mem_canonicalOrder.2 ⟨length.1, length.2, List.getElem?_eq_getElem inside⟩
  refine (left_or_isSome_word?_place _ _ _ _ listed).resolve_left ?_
  rw [placed]
  exact List.not_mem_nil

theorem of_word?_ofDataLengths (made : ofDataLengths? lengths = some tree)
    (found : tree.word? symbol = some word) :
    word ≠ [] ∧ ∃ length, 0 < length ∧ lengths[symbol]? = some length := by
  unfold ofDataLengths? at made
  split at made
  · next canonical =>
    split at made
    · cases made
      exact of_word?_ofLengths canonical found
    · cases made
  · cases made

theorem word?_ofLengthLengths_ne_nil (made : ofLengthLengths? lengths = some tree)
    (found : tree.word? symbol = some word) : word ≠ [] := by
  unfold ofLengthLengths? at made
  split at made
  · cases made
    have whole := reads_decode .literal found
    rintro rfl
    cases whole
  · split at made
    · next canonical =>
      split at made
      · cases made
        exact (of_word?_ofLengths canonical found).1
      · cases made
    · cases made

/-! ## Words of all symbols -/

theorem exists_of_mapM {α β : Type} {f : α → Option β} {l : List α} {made : List β}
    (h : l.mapM f = some made) {i : Nat} {x : α} (listed : l[i]? = some x) :
    ∃ y, f x = some y ∧ made[i]? = some y := by
  induction l generalizing made i with
  | nil => cases listed
  | cons first rest ih =>
    rw [List.mapM_cons] at h
    obtain ⟨head, hfirst, h⟩ := Option.bind_eq_some_iff.1 h
    obtain ⟨tail, hrest, h⟩ := Option.bind_eq_some_iff.1 h
    cases h
    cases i with
    | zero =>
      cases listed
      exact ⟨head, hfirst, rfl⟩
    | succ i => exact ih hrest listed

/-- A symbol that has a weight has the word of its code. -/
theorem word?_of_words? {weights : List Nat} {words : Array (List Bool)}
    (made : tree.words? weights = some words) {weight : Nat}
    (listed : weights[symbol]? = some weight) (needed : weight ≠ 0) :
    tree.word? symbol = some (words.getD symbol []) := by
  obtain ⟨list, each, rfl⟩ := Option.map_eq_some_iff.1 made
  have numbered : weights.zipIdx[symbol]? = some (weight, symbol) := by
    rw [List.getElem?_zipIdx, listed, Option.map_some, Nat.zero_add]
  obtain ⟨word, found, there⟩ := exists_of_mapM each numbered
  simp only [if_neg needed] at found
  rw [found, Array.getD_eq_getD_getElem?, List.getElem?_toArray, there, Option.getD_some]

end Tree

end Deflate

end ParallelGzip
