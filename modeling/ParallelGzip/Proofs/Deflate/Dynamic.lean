import ParallelGzip.Deflate.Dynamic
import ParallelGzip.Proofs.Deflate.Symbol

set_option autoImplicit false

/-! # The code of a block is read back

The description of a dynamic block is read back as the codes that were made for it. Nothing has to
be known of the lengths that are proposed but how many there are; that the proposal is taken only if
its lengths can be sent and it has the words that are needed does the rest. -/

namespace ParallelGzip

open ParallelGzip.Parser (Reads)

namespace Deflate

/-! ## How many lengths there are -/

theorem length_addWeights (missing : Nat) (weights : List Nat) :
    (addWeights missing weights).length = weights.length := by
  fun_induction addWeights missing weights with
  | case1 => rfl
  | case2 => rfl
  | case3 missing weights ih => simp [ih]
  | case4 missing weight weights _ ih => simp [ih]

theorem size_enterDepths (tree : Growth) (depth : Nat) (lengths : Array Nat) :
    (tree.enterDepths depth lengths).size = lengths.size := by
  induction tree generalizing depth lengths with
  | symbol s => simp [Growth.enterDepths]
  | join left right ihLeft ihRight => rw [Growth.enterDepths, ihRight, ihLeft]

theorem length_huffmanLengths (weights : List Nat) :
    (huffmanLengths weights).length = weights.length := by
  unfold huffmanLengths
  dsimp only
  split
  · simp [size_enterDepths]
  · simp

theorem length_lengthsWithin (limit attempts : Nat) (weights : List Nat) :
    (lengthsWithin limit attempts weights).length = weights.length := by
  induction attempts generalizing weights with
  | zero => exact length_huffmanLengths weights
  | succ attempts ih =>
    rw [lengthsWithin]
    split
    · exact length_huffmanLengths weights
    · rw [ih, List.length_map]

/-- There is a length for every symbol. -/
theorem length_codeLengths (limit : Nat) (weights : List Nat) :
    (codeLengths limit weights).length = weights.length := by
  rw [codeLengths, length_lengthsWithin, length_addWeights]

theorem length_trimZeros_le (least : Nat) (lengths : List Nat) :
    (trimZeros least lengths).length ≤ lengths.length := by
  rw [trimZeros, List.length_take]
  exact Nat.min_le_right _ _

theorem le_length_trimZeros {least : Nat} {lengths : List Nat} (le : least ≤ lengths.length) :
    least ≤ (trimZeros least lengths).length := by
  rw [trimZeros, List.length_take]
  exact Nat.le_min.2 ⟨Nat.le_max_left _ _, le⟩

/-! ## Lengths as items -/

namespace LengthItem

/-- The lengths that an item stands for. -/
def expand : LengthItem → List Nat
  | length n => [n]
  | zeros count => List.replicate count 0

/-- An item that can be written. -/
def Sendable : LengthItem → Prop
  | length n => n ≤ Tree.maxCodeLength
  | zeros count => 3 ≤ count ∧ count ≤ maxZeros

theorem expand_ofZeros (count : Nat) : (ofZeros count).flatMap expand = List.replicate count 0 := by
  fun_induction ofZeros count with
  | case1 count few =>
    have each (n : Nat) : (List.replicate n (length 0)).flatMap expand = List.replicate n 0 := by
      induction n with
      | zero => rfl
      | succ n ih => rw [List.replicate_succ, List.flatMap_cons, ih]; rfl
    exact each count
  | case2 count many ih =>
    have whole : min count maxZeros + (count - maxZeros) = count := by omega
    rw [List.flatMap_cons, ih, expand, List.replicate_append_replicate, whole]

theorem sendable_ofZeros (count : Nat) : ∀ item ∈ ofZeros count, item.Sendable := by
  fun_induction ofZeros count with
  | case1 count few =>
    intro item listed
    rw [(List.mem_replicate.1 listed).2]
    exact Nat.zero_le _
  | case2 count many ih =>
    intro item listed
    rcases List.mem_cons.1 listed with rfl | later
    · exact ⟨by simp only [maxZeros]; omega, Nat.min_le_right _ _⟩
    · exact ih item later

theorem expand_ofLengths (before : Nat) (lengths : List Nat) :
    (ofLengths before lengths).flatMap expand = List.replicate before 0 ++ lengths := by
  fun_induction ofLengths before lengths with
  | case1 before => rw [expand_ofZeros, List.append_nil]
  | case2 before lengths ih =>
    rw [ih, List.replicate_succ', List.append_assoc, List.singleton_append]
  | case3 before n lengths ih =>
    rw [List.flatMap_append, List.flatMap_cons, ih, expand_ofZeros]
    rfl

theorem sendable_ofLengths (before : Nat) {lengths : List Nat}
    (short : ∀ n ∈ lengths, n ≤ Tree.maxCodeLength) :
    ∀ item ∈ ofLengths before lengths, item.Sendable := by
  fun_induction ofLengths before lengths with
  | case1 before => exact sendable_ofZeros before
  | case2 before lengths ih => exact ih fun n listed => short n (List.mem_cons_of_mem _ listed)
  | case3 before n lengths ih =>
    intro item listed
    rcases List.mem_append.1 listed with zero | listed
    · exact sendable_ofZeros before item zero
    · rcases List.mem_cons.1 listed with rfl | later
      · exact short _ List.mem_cons_self
      · exact ih (fun n listed => short n (List.mem_cons_of_mem _ listed)) item later

end LengthItem

/-! ## Reading items -/

theorem counted_foldl_of_counted {counts : Array Nat} {symbol : Nat}
    (counted : Counted counts symbol) (items : List LengthItem) :
    Counted (items.foldl (fun weights item => weights.modify item.symbol (· + 1)) counts)
      symbol := by
  induction items generalizing counts with
  | nil => exact counted
  | cons item items ih => exact ih (counted.modify _)

theorem counted_foldl {counts : Array Nat} {items : List LengthItem}
    (inside : ∀ item ∈ items, item.symbol < counts.size) :
    ∀ item ∈ items,
      Counted (items.foldl (fun weights item => weights.modify item.symbol (· + 1)) counts)
        item.symbol := by
  induction items generalizing counts with
  | nil =>
    intro item none
    cases none
  | cons first items ih =>
    intro item listed
    rcases List.mem_cons.1 listed with rfl | later
    · exact counted_foldl_of_counted (counted_modify (inside _ listed)) items
    · refine ih ?_ item later
      intro item listed
      rw [Array.size_modify]
      exact inside item (List.mem_cons_of_mem _ listed)

theorem LengthItem.Sendable.symbol_lt {item : LengthItem} (sendable : item.Sendable) :
    item.symbol < lengthLengthOrder.length := by
  have count : lengthLengthOrder.length = 19 := rfl
  cases item with
  | length n =>
    have limit : n ≤ 15 := sendable
    rw [LengthItem.symbol, count]
    omega
  | zeros count =>
    rw [LengthItem.symbol]
    split <;> decide

/-- Words with which every one of these items can be read back. -/
def ItemsHave (tree : Tree) (words : Array (List Bool)) (items : List LengthItem) : Prop :=
  ∀ item ∈ items, tree.word? item.symbol = some (words.getD item.symbol []) ∧
    words.getD item.symbol [] ≠ []

/-- A run of zeros is read back from its extra bits. -/
theorem reads_run {tree : Tree} (base : Nat) {bits count left rest : Nat} {before : List Nat}
    {more : List Bool} {lengths : List Nat} (some : 0 < base) (le : base ≤ count)
    (fits : count - base < Nat.pow 2 bits) (total : left + 1 = count + rest)
    (later : (readCodeLengths tree rest (List.replicate count 0 ++ before)).Reads more lengths) :
    ((readBits bits).andThen fun extra =>
      if left + 1 < base + extra.val then .fail .repetition
      else readCodeLengths tree (left - (base - 1 + extra.val))
        (List.replicate (base + extra.val) 0 ++ before)).Reads
      (numberBits bits (count - base) ++ more) lengths := by
  refine (reads_readBits bits _ fits).bind ?_
  have whole : base + (count - base) = count := Nat.add_sub_cancel' le
  have enough : ¬left + 1 < base + (count - base) := by omega
  have behind : left - (base - 1 + (count - base)) = rest := by omega
  rw [if_neg enough, whole, behind]
  exact later

/-- Items are read back as the lengths they stand for. -/
theorem reads_items {tree : Tree} {words : Array (List Bool)} {items : List LengthItem}
    (has : ItemsHave tree words items) (sendable : ∀ item ∈ items, item.Sendable)
    (before : List Nat) :
    (readCodeLengths tree (items.flatMap LengthItem.expand).length before).Reads
      (itemBits words items) (before.reverse ++ items.flatMap LengthItem.expand) := by
  induction items generalizing before with
  | nil =>
    rw [List.flatMap_nil, List.length_nil, readCodeLengths, List.append_nil]
    exact .done _
  | cons item items ih =>
    obtain ⟨found, nonempty⟩ := has item List.mem_cons_self
    have later := ih (fun item listed => has item (List.mem_cons_of_mem _ listed))
      fun item listed => sendable item (List.mem_cons_of_mem _ listed)
    have fits := sendable item List.mem_cons_self
    have word := Tree.reads_read .literal found nonempty
    cases item with
    | length n =>
      have limit : n ≤ 15 := fits
      have left : ((LengthItem.length n :: items).flatMap LengthItem.expand).length =
          (items.flatMap LengthItem.expand).length + 1 := rfl
      rw [left, readCodeLengths, itemBits, List.flatMap_cons, LengthItem.extra, List.append_nil]
      refine word.bind ?_
      have small : (LengthItem.length n).symbol < 16 := Nat.lt_succ_of_le limit
      rw [if_pos small]
      have rest := later (n :: before)
      rw [List.reverse_cons, List.append_assoc] at rest
      exact rest
    | zeros count =>
      -- the reader sets aside one length before it knows that there are more
      obtain ⟨many, limit⟩ : 3 ≤ count ∧ count ≤ 138 := fits
      obtain ⟨left, total⟩ : ∃ left, count + (items.flatMap LengthItem.expand).length = left + 1 :=
        Nat.exists_eq_succ_of_ne_zero (by omega)
      have length : ((LengthItem.zeros count :: items).flatMap LengthItem.expand).length =
          left + 1 := by
        rw [List.flatMap_cons, List.length_append, LengthItem.expand, List.length_replicate, total]
      have rest := later (List.replicate count 0 ++ before)
      rw [List.reverse_append, List.reverse_replicate, List.append_assoc] at rest
      rw [length, readCodeLengths, itemBits, List.flatMap_cons, List.append_assoc]
      refine word.bind ?_
      by_cases few : count ≤ 10
      · rw [LengthItem.symbol, if_pos few, if_neg (by decide), if_neg (by decide), if_pos rfl,
          LengthItem.extra, if_pos few]
        exact reads_run 3 (by decide) many (Nat.lt_succ_of_le (by omega)) total.symm rest
      · rw [LengthItem.symbol, if_neg few, if_neg (by decide), if_neg (by decide),
          if_neg (by decide), LengthItem.extra, if_neg few]
        exact reads_run 11 (by decide) (by omega) (Nat.lt_succ_of_le (by omega))
          total.symm rest

/-! ## The description of a code -/

theorem reads_lengthLengths {sent : List Nat} (short : ∀ n ∈ sent, n ≤ maxLengthLength) :
    (readLengthLengths sent.length).Reads (sent.flatMap (numberBits 3)) sent := by
  induction sent with
  | nil => exact .done []
  | cons n sent ih =>
    have small : n < Nat.pow 2 3 := Nat.lt_succ_of_le (short n List.mem_cons_self)
    refine (reads_readBits 3 n small).bind ?_
    exact (ih fun n listed => short n (List.mem_cons_of_mem _ listed)).bind_done rfl

/-- Lengths that can be sent are read back, and the codes made from them with them. -/
theorem reads_dynamicCodes (codes : Codes) {literals distances sent : List Nat} {itemTree : Tree}
    {itemWords : Array (List Bool)} (fewLiterals : literals.length ≤ literalSymbols)
    (manyLiterals : endSymbol + 1 ≤ literals.length)
    (fewDistances : distances.length ≤ distanceSymbols) (someDistances : 1 ≤ distances.length)
    (ends : literals[endSymbol]? ≠ some 0) (fewSent : sent.length ≤ lengthLengthOrder.length)
    (someSent : 4 ≤ sent.length) (shortSent : ∀ n ∈ sent, n ≤ maxLengthLength)
    (item : Tree.ofLengthLengths? (sortLengthLengths sent) = some itemTree)
    (has : ItemsHave itemTree itemWords (LengthItem.ofLengths 0 (literals ++ distances)))
    (short : ∀ n ∈ literals ++ distances, n ≤ Tree.maxCodeLength)
    (literal : Tree.ofDataLengths? literals = some codes.literals)
    (distance : Tree.ofDataLengths? distances = some codes.distances) :
    readDynamicCodes.Reads (numberBits 5 (literals.length - (endSymbol + 1))
      ++ numberBits 5 (distances.length - 1) ++ numberBits 4 (sent.length - 4)
      ++ sent.flatMap (numberBits 3)
      ++ itemBits itemWords (LengthItem.ofLengths 0 (literals ++ distances))) codes := by
  have limits : literalSymbols = 286 ∧ distanceSymbols = 30 ∧ endSymbol = 256 ∧
    lengthLengthOrder.length = 19 := ⟨rfl, rfl, rfl, rfl⟩
  have powers : Nat.pow 2 5 = 32 ∧ Nat.pow 2 4 = 16 := ⟨rfl, rfl⟩
  have hliterals : literals.length - (endSymbol + 1) + 257 = literals.length := by omega
  have hdistances : distances.length - 1 + 1 = distances.length := by omega
  have hsent : sent.length - 4 + 4 = sent.length := by omega
  have within : ¬(286 < literals.length ∨ 30 < distances.length) := by omega
  have whole : (LengthItem.ofLengths 0 (literals ++ distances)).flatMap LengthItem.expand =
      literals ++ distances := LengthItem.expand_ofLengths 0 _
  have items := reads_items has (LengthItem.sendable_ofLengths 0 short) []
  rw [whole, List.length_append] at items
  have here : (literals ++ distances)[endSymbol]? = literals[endSymbol]? :=
    List.getElem?_append_left (by omega)
  -- the three counts, the lengths of the lengths, and the lengths
  simp only [List.append_assoc]
  refine (reads_readBits 5 _ (by omega)).bind ?_
  refine (reads_readBits 5 _ (by omega)).bind ?_
  refine (reads_readBits 4 _ (by omega)).bind ?_
  simp only [hliterals, hdistances, hsent]
  rw [if_neg within]
  refine (reads_lengthLengths shortSent).bind ?_
  simp only [item]
  refine items.bind_done ?_
  simp only [List.reverse_nil, List.nil_append, here, ends, if_false, List.take_left,
    List.drop_left, literal, distance]

theorem le_of_guard {l : List Nat} {limit : Nat}
    (passed : (guard (l.all (· ≤ limit)) : Option Unit) = some ()) : ∀ n ∈ l, n ≤ limit := by
  unfold guard at passed
  split at passed
  · next all =>
    intro n listed
    exact of_decide_eq_true (List.all_eq_true.1 all n listed)
  · cases passed

/-- The words made for the weights of items are those with which they are read back. -/
theorem itemsHave_of_words? {lengths : List Nat} {tree : Tree} {words : Array (List Bool)}
    {items : List LengthItem} (made : Tree.ofLengthLengths? lengths = some tree)
    (words? : tree.words? (itemWeights items).toList = some words)
    (sendable : ∀ item ∈ items, item.Sendable) : ItemsHave tree words items := by
  intro item listed
  have inside : ∀ item ∈ items,
      item.symbol < (Array.replicate lengthLengthOrder.length 0 : Array Nat).size := by
    intro item listed
    rw [Array.size_replicate]
    exact (sendable item listed).symbol_lt
  obtain ⟨count, counted, some⟩ := counted_foldl inside item listed
  have found := Tree.word?_of_words? words? (by rwa [Array.getElem?_toList]) some
  exact ⟨found, Tree.word?_ofLengthLengths_ne_nil made found⟩

/-- A code that has a word for the end of a block sends a length for it. -/
theorem getElem?_endSymbol_ne {lengths : List Nat} {tree : Tree} {words : Array (List Bool)}
    {weights : Weights} (whole : weights.Whole) (made : Tree.ofDataLengths? lengths = some tree)
    (words? : tree.words? weights.literals.toList = some words) :
    lengths[endSymbol]? ≠ some 0 := by
  obtain ⟨count, counted, some⟩ := whole.ends
  have found := Tree.word?_of_words? words? (by rwa [Array.getElem?_toList]) some
  obtain ⟨-, length, long, listed⟩ := Tree.of_word?_ofDataLengths made found
  rw [listed]
  intro none
  cases none
  exact Nat.lt_irrefl 0 long

/-- What is sent of a code made for a block is read back as this code, and it has the words. -/
theorem reads_description {weights : Weights} {code : DynamicCode} (whole : weights.Whole)
    (made : dynamicCode? weights = some code) :
    ∃ codes : Codes, codes.Proper ∧ readDynamicCodes.Reads code.description codes ∧
      Words.ofCodes? codes weights = some code.words := by
  unfold dynamicCode? at made
  obtain ⟨literalTree, hliteral, made⟩ := Option.bind_eq_some_iff.1 made
  obtain ⟨distanceTree, hdistance, made⟩ := Option.bind_eq_some_iff.1 made
  obtain ⟨words, hwords, made⟩ := Option.bind_eq_some_iff.1 made
  obtain ⟨⟨⟩, hshort, made⟩ := Option.bind_eq_some_iff.1 made
  obtain ⟨⟨⟩, hsent, made⟩ := Option.bind_eq_some_iff.1 made
  obtain ⟨itemTree, hitem, made⟩ := Option.bind_eq_some_iff.1 made
  obtain ⟨itemWords, hitemWords, made⟩ := Option.bind_eq_some_iff.1 made
  cases made
  -- the checks that were passed on the way are what the reader asks for
  refine ⟨⟨literalTree, distanceTree⟩, ?_, ?_, hwords⟩
  · exact ⟨fun symbol word found => (Tree.of_word?_ofDataLengths hliteral found).1,
      fun symbol word found => (Tree.of_word?_ofDataLengths hdistance found).1⟩
  · have short := le_of_guard hshort
    have sendable := LengthItem.sendable_ofLengths 0 short
    obtain ⟨literals, hliterals, -⟩ := Option.bind_eq_some_iff.1 hwords
    have literalCount : (codeLengths Tree.maxCodeLength weights.literals.toList).length =
        literalSymbols := (length_codeLengths _ _).trans whole.literals
    have distanceCount : (codeLengths Tree.maxCodeLength weights.distances.toList).length =
        distanceSymbols := (length_codeLengths _ _).trans whole.distances
    refine reads_dynamicCodes ⟨literalTree, distanceTree⟩ ?_ ?_ ?_ ?_
      (getElem?_endSymbol_ne whole hliteral hliterals) ?_ ?_ (le_of_guard hsent) hitem
      (itemsHave_of_words? hitem hitemWords sendable) short hliteral hdistance
    · rw [← literalCount]
      exact length_trimZeros_le _ _
    · exact le_length_trimZeros (by rw [literalCount]; decide)
    · rw [← distanceCount]
      exact length_trimZeros_le _ _
    · exact le_length_trimZeros (by rw [distanceCount]; decide)
    · exact Nat.le_trans (length_trimZeros_le _ _) (Nat.le_of_eq (List.length_map _))
    · refine le_length_trimZeros ?_
      rw [List.length_map]
      decide

end Deflate

end ParallelGzip
