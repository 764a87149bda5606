import ParallelGzip.Proofs.Deflate.Bits
import ParallelGzip.Proofs.Deflate.Code

set_option autoImplicit false

/-! # Reading tokens back

A token is written as words and extra bits, and a block is read unit by unit. In codes that have the
words, the unit read is the token written: the symbol chosen for a length or a distance is the one
whose range it falls into, so that what is left fits the extra bits. -/

namespace ParallelGzip

open ParallelGzip.Parser (Reads)

namespace Deflate

/-! ## Symbols and their ranges -/

theorem symbolFor_cons {first value : Nat} (bases : List Nat) (le : first ≤ value) :
    symbolFor (first :: bases) value = (bases.takeWhile (· ≤ value)).length := by
  simp [symbolFor, le]

/-- The symbol chosen is the last one whose base is not too great. -/
theorem symbolFor_spec {first value : Nat} (bases : List Nat) (le : first ≤ value) :
    ∃ base, (first :: bases)[symbolFor (first :: bases) value]? = some base ∧ base ≤ value ∧
      ∀ next, (first :: bases)[symbolFor (first :: bases) value + 1]? = some next →
        value < next := by
  induction bases generalizing first with
  | nil =>
    rw [symbolFor_cons [] le]
    exact ⟨first, rfl, le, fun _ next => by cases next⟩
  | cons second bases ih =>
    rw [symbolFor_cons _ le]
    by_cases more : second ≤ value
    · have further : ((second :: bases).takeWhile (· ≤ value)).length =
          symbolFor (second :: bases) value + 1 := by
        rw [symbolFor_cons bases more]
        simp [more]
      rw [further]
      exact ih more
    · have here : ((second :: bases).takeWhile (· ≤ value)).length = 0 := by
        simp [more]
      rw [here]
      refine ⟨first, rfl, le, ?_⟩
      intro next hnext
      cases hnext
      exact Nat.lt_of_not_le more

theorem getD_toArray {n i : Nat} (v : Vector Nat n) (hi : i < n) :
    v.toArray.getD i 0 = v.get ⟨i, hi⟩ := by
  simp [Array.getD, Vector.get, hi]

/-- If the range of every symbol reaches to the next one, a value up to the end of the last range is
    in the range of the symbol chosen for it. -/
theorem symbolFor_range {n value : Nat} (bases extras : Vector Nat (n + 1))
    (lower : bases.get 0 ≤ value)
    (reaches : ∀ s : Fin n,
      bases.get s.succ ≤ bases.get s.castSucc + Nat.pow 2 (extras.get s.castSucc))
    (upper : value < bases.get (Fin.last n) + Nat.pow 2 (extras.get (Fin.last n))) :
    ∃ h : symbolFor bases.toList value < n + 1, bases.get ⟨_, h⟩ ≤ value ∧
      value - bases.get ⟨_, h⟩ < Nat.pow 2 (extras.get ⟨_, h⟩) := by
  have listed (i : Nat) (hi : i < n + 1) : bases.toList[i]? = some (bases.get ⟨i, hi⟩) := by
    simp [Vector.get, hi]
  obtain ⟨first, tail, hlist⟩ : ∃ first tail, bases.toList = first :: tail :=
    List.exists_cons_of_length_eq_add_one (n := n) (by simp)
  have hfirst : first = bases.get 0 := by
    have zero := listed 0 (Nat.succ_pos n)
    rw [hlist] at zero
    exact Option.some.inj zero
  obtain ⟨base, found, le, next⟩ := symbolFor_spec tail (hfirst ▸ lower)
  rw [← hlist] at found next
  have h : symbolFor bases.toList value < n + 1 := by
    simpa using (List.getElem?_eq_some_iff.1 found).1
  rw [listed _ h] at found
  cases found
  refine ⟨h, le, ?_⟩
  -- behind the last symbol there is no other that would bound the value
  by_cases last : symbolFor bases.toList value = n
  · have same : (⟨symbolFor bases.toList value, h⟩ : Fin (n + 1)) = Fin.last n := Fin.ext last
    rw [same] at le ⊢
    omega
  · have below := next _ (listed _ (show symbolFor bases.toList value + 1 < n + 1 by omega))
    have reach := reaches ⟨symbolFor bases.toList value, by omega⟩
    have split : value < bases.get ⟨symbolFor bases.toList value, h⟩
        + Nat.pow 2 (extras.get ⟨symbolFor bases.toList value, h⟩) := Nat.lt_of_lt_of_le below reach
    omega

/-- A length is in the range of its symbol. -/
theorem lengthSymbol_spec {length : Nat} (lower : 3 ≤ length) (upper : length ≤ maxMatch) :
    ∃ h : lengthSymbol length < 29, lengthBases.get ⟨_, h⟩ ≤ length ∧
      length - lengthBases.get ⟨_, h⟩ < Nat.pow 2 (lengthExtras.get ⟨_, h⟩) :=
  symbolFor_range lengthBases lengthExtras lower (by decide) (Nat.lt_succ_of_le upper)

/-- A distance is in the range of its symbol. -/
theorem distanceSymbol_spec {distance : Nat} (lower : 1 ≤ distance)
    (upper : distance ≤ windowSize) :
    ∃ h : distanceSymbol distance < 30, distanceBases.get ⟨_, h⟩ ≤ distance ∧
      distance - distanceBases.get ⟨_, h⟩ < Nat.pow 2 (distanceExtras.get ⟨_, h⟩) :=
  symbolFor_range distanceBases distanceExtras lower (by decide) (Nat.lt_succ_of_le upper)

/-! ## Tokens -/

/-- A token that can be written: its length and its distance have symbols. -/
def Token.Writable : Token → Prop
  | literal _ => True
  | copy length distance =>
    3 ≤ length ∧ length ≤ maxMatch ∧ 1 ≤ distance ∧ distance ≤ windowSize

/-- The words have the one that the codes have for a literal, the end of a block or a length. -/
def Words.HasLiteral (words : Words) (codes : Codes) (symbol : Nat) : Prop :=
  codes.literals.word? symbol = some (words.literal symbol) ∧ words.literal symbol ≠ []

/-- The words have the one that the codes have for a distance. -/
def Words.HasDistance (words : Words) (codes : Codes) (symbol : Nat) : Prop :=
  codes.distances.word? symbol = some (words.distance symbol) ∧ words.distance symbol ≠ []

/-- The words have those of the codes that are needed for a token. -/
def Words.Has (words : Words) (codes : Codes) : Token → Prop
  | .literal value => words.HasLiteral codes value.toNat
  | .copy length distance => words.HasLiteral codes (endSymbol + 1 + lengthSymbol length) ∧
    words.HasDistance codes (distanceSymbol distance)

variable {words : Words} {codes : Codes}

/-- A symbol of a coded block is read, and then what it calls for. -/
theorem reads_literalWord {symbol : Nat} {more : List Bool} {event : Event}
    (has : words.HasLiteral codes symbol) (want : Nat) (next : Nat → Parser Bool Defect Event)
    (rest : (next symbol).Reads more event) :
    (Parser.need want fun bit => (codes.literals.branch bit).decode .literal >>= next).Reads
      (words.literal symbol ++ more) event := by
  obtain ⟨found, nonempty⟩ := has
  cases word : words.literal symbol with
  | nil => exact absurd word nonempty
  | cons bit bits =>
    rw [word] at found
    exact .need ((Tree.reads_branch .literal found).bind rest)

theorem Words.HasLiteral.reads {symbol : Nat} (has : words.HasLiteral codes symbol) :
    (codes.literals.read .literal).Reads (words.literal symbol) symbol :=
  Tree.reads_read .literal has.1 has.2

theorem reads_endOfBlock (has : words.HasLiteral codes endSymbol) (want : Nat) (final : Bool) :
    (Parser.need want (readSymbol codes final)).Reads (words.literal endSymbol)
      (.endOfBlock final) := by
  rw [← List.append_nil (words.literal _)]
  refine reads_literalWord has want _ ?_
  rw [if_neg (Nat.lt_irrefl _), if_pos rfl]
  exact .done _

theorem reads_distance {distance : Nat} (has : words.HasDistance codes (distanceSymbol distance))
    (lower : 1 ≤ distance) (upper : distance ≤ windowSize) (length : MatchLength) (final : Bool) :
    (readDistance length codes final).Reads (words.distance (distanceSymbol distance) ++
        numberBits (distanceExtras.toArray.getD (distanceSymbol distance) 0)
          (distance - distanceBases.toArray.getD (distanceSymbol distance) 0))
      (.copy length distance codes final) := by
  obtain ⟨h, le, fits⟩ := distanceSymbol_spec lower upper
  rw [getD_toArray _ h, getD_toArray _ h]
  refine (Tree.reads_read .distance has.1 has.2).bind ?_
  rw [dif_pos h]
  refine (reads_readBits _ _ fits).bind_done ?_
  rw [distanceOf, Nat.add_sub_cancel' le]

/-- The extra bits of a length are read, and then what the length calls for. -/
theorem reads_length {s length : Nat} {more : List Bool} {event : Event} (lower : 3 ≤ length)
    (upper : length ≤ maxMatch) (next : MatchLength → Parser Bool Defect Event)
    (rest : (next ⟨length, Nat.lt_succ_of_le upper⟩).Reads more event)
    (symbol : s = lengthSymbol length) (h : s < 29) :
    (readBits (lengthExtras.get ⟨s, h⟩) >>= fun extra => next (lengthOf ⟨s, h⟩ extra)).Reads
      (numberBits (lengthExtras.toArray.getD (lengthSymbol length) 0)
        (length - lengthBases.toArray.getD (lengthSymbol length) 0) ++ more) event := by
  subst symbol
  obtain ⟨_, le, fits⟩ := lengthSymbol_spec lower upper
  have whole : lengthOf ⟨lengthSymbol length, h⟩ ⟨_, fits⟩ = ⟨length, Nat.lt_succ_of_le upper⟩ :=
    Fin.ext (Nat.add_sub_cancel' le)
  rw [getD_toArray _ h, getD_toArray _ h]
  refine (reads_readBits _ _ fits).bind ?_
  rw [whole]
  exact rest

theorem reads_copy {length distance : Nat} (has : words.Has codes (.copy length distance))
    (writable : Token.Writable (.copy length distance)) (want : Nat) (final : Bool) :
    (Parser.need want (readSymbol codes final)).Reads (Token.bits words (.copy length distance))
      (.copy ⟨length, Nat.lt_succ_of_le writable.2.1⟩ distance codes final) := by
  obtain ⟨lower, upper, nearest, farthest⟩ := writable
  have shift : endSymbol + 1 + lengthSymbol length - (endSymbol + 1) = lengthSymbol length :=
    Nat.add_sub_cancel_left ..
  have notLiteral : ¬endSymbol + 1 + lengthSymbol length < endSymbol := by omega
  have notEnd : endSymbol + 1 + lengthSymbol length ≠ endSymbol := by omega
  have known : endSymbol + 1 + lengthSymbol length - (endSymbol + 1) < 29 := by
    rw [shift]
    exact (lengthSymbol_spec lower upper).1
  simp only [Token.bits, List.append_assoc]
  refine reads_literalWord has.1 want _ ?_
  rw [if_neg notLiteral, if_neg notEnd, dif_pos known]
  exact reads_length lower upper (readDistance · codes final)
    (reads_distance has.2 nearest farthest _ final) shift _

/-! ## The words that a block needs -/

/-- The words have those of the codes that are needed for a block with these tokens. -/
def Words.HasAll (words : Words) (codes : Codes) (tokens : List Token) : Prop :=
  words.HasLiteral codes endSymbol ∧ ∀ token ∈ tokens, words.Has codes token

/-- Whether a symbol has been counted. -/
def Counted (counts : Array Nat) (symbol : Nat) : Prop :=
  ∃ count, counts[symbol]? = some count ∧ count ≠ 0

theorem Counted.modify {counts : Array Nat} {symbol : Nat} (counted : Counted counts symbol)
    (other : Nat) : Counted (counts.modify other (· + 1)) symbol := by
  obtain ⟨count, listed, some⟩ := counted
  rw [Counted, Array.getElem?_modify, listed]
  by_cases same : other = symbol
  · rw [if_pos same]
    exact ⟨count + 1, rfl, Nat.succ_ne_zero count⟩
  · rw [if_neg same]
    exact ⟨count, rfl, some⟩

theorem counted_modify {counts : Array Nat} {symbol : Nat} (inside : symbol < counts.size) :
    Counted (counts.modify symbol (· + 1)) symbol := by
  rw [Counted, Array.getElem?_modify, if_pos rfl, Array.getElem?_eq_getElem inside]
  exact ⟨_, rfl, Nat.succ_ne_zero _⟩

namespace Weights

/-- The weights count the symbols of a token. -/
def Counts (weights : Weights) : Token → Prop
  | .literal value => Counted weights.literals value.toNat
  | .copy length distance => Counted weights.literals (endSymbol + 1 + lengthSymbol length) ∧
    Counted weights.distances (distanceSymbol distance)

variable {weights : Weights} {token : Token}

theorem Counts.add (counts : weights.Counts token) (other : Token) :
    (weights.add other).Counts token := by
  cases token with
  | literal value =>
    cases other with
    | literal _ => exact Counted.modify counts _
    | copy _ _ => exact Counted.modify counts _
  | copy length distance =>
    cases other with
    | literal _ => exact ⟨counts.1.modify _, counts.2⟩
    | copy _ _ => exact ⟨counts.1.modify _, counts.2.modify _⟩

/-- Weights with a place for every symbol, one of which has been counted: the end of the block. -/
structure Whole (weights : Weights) : Prop where
  literals : weights.literals.size = literalSymbols
  distances : weights.distances.size = distanceSymbols
  ends : Counted weights.literals endSymbol

theorem whole_empty : Whole empty where
  literals := by simp [empty]
  distances := by simp [empty]
  ends := ⟨1, by simp [empty, literalSymbols, endSymbol], by decide⟩

theorem Whole.add (whole : weights.Whole) (token : Token) : (weights.add token).Whole := by
  obtain ⟨literals, distances, ends⟩ := whole
  cases token with
  | literal value => exact ⟨by simpa [Weights.add] using literals, distances, ends.modify _⟩
  | copy length distance =>
    exact ⟨by simpa [Weights.add] using literals, by simpa [Weights.add] using distances,
      ends.modify _⟩

theorem Whole.counts_add (whole : weights.Whole) (writable : token.Writable) :
    (weights.add token).Counts token := by
  cases token with
  | literal value =>
    have small := value.toNat_lt
    refine counted_modify ?_
    rw [whole.literals, literalSymbols]
    omega
  | copy length distance =>
    obtain ⟨lower, upper, nearest, farthest⟩ := writable
    obtain ⟨hl, -⟩ := lengthSymbol_spec lower upper
    obtain ⟨hd, -⟩ := distanceSymbol_spec nearest farthest
    refine ⟨counted_modify ?_, counted_modify ?_⟩
    · rw [whole.literals, literalSymbols, endSymbol]
      omega
    · rw [whole.distances]
      exact hd

theorem whole_foldl (tokens : List Token) (whole : weights.Whole) :
    (tokens.foldl add weights).Whole := by
  induction tokens generalizing weights with
  | nil => exact whole
  | cons token tokens ih => exact ih (whole.add token)

theorem Counts.foldl (counts : weights.Counts token) (tokens : List Token) :
    (tokens.foldl Weights.add weights).Counts token := by
  induction tokens generalizing weights with
  | nil => exact counts
  | cons other tokens ih => exact ih (counts.add other)

theorem counts_foldl {tokens : List Token} (whole : weights.Whole)
    (writable : ∀ token ∈ tokens, token.Writable) :
    ∀ token ∈ tokens, (tokens.foldl add weights).Counts token := by
  induction tokens generalizing weights with
  | nil =>
    intro token none
    cases none
  | cons first tokens ih =>
    intro token listed
    rcases List.mem_cons.1 listed with rfl | later
    · exact (whole.counts_add (writable _ listed)).foldl tokens
    · exact ih (whole.add first) (fun token h => writable token (List.mem_cons_of_mem _ h)) token
        later

theorem whole_ofTokens (tokens : List Token) : (ofTokens tokens).Whole :=
  whole_foldl tokens whole_empty

end Weights

/-- Codes in which no word is without bits. -/
structure Codes.Proper (codes : Codes) : Prop where
  literals : ∀ symbol word, codes.literals.word? symbol = some word → word ≠ []
  distances : ∀ symbol word, codes.distances.word? symbol = some word → word ≠ []

/-- Words made for the weights of tokens are those that the tokens need. -/
theorem Words.hasAll_of_ofCodes? {tokens : List Token} (proper : codes.Proper)
    (made : Words.ofCodes? codes (Weights.ofTokens tokens) = some words)
    (writable : ∀ token ∈ tokens, token.Writable) : words.HasAll codes tokens := by
  obtain ⟨literals, hliterals, made⟩ := Option.bind_eq_some_iff.1 made
  obtain ⟨distances, hdistances, made⟩ := Option.bind_eq_some_iff.1 made
  cases made
  have literal (symbol : Nat) (counted : Counted (Weights.ofTokens tokens).literals symbol) :
      Words.HasLiteral ⟨literals, distances⟩ codes symbol := by
    obtain ⟨count, listed, some⟩ := counted
    have found := Tree.word?_of_words? hliterals (by rwa [Array.getElem?_toList]) some
    exact ⟨found, proper.literals _ _ found⟩
  have distance (symbol : Nat) (counted : Counted (Weights.ofTokens tokens).distances symbol) :
      Words.HasDistance ⟨literals, distances⟩ codes symbol := by
    obtain ⟨count, listed, some⟩ := counted
    have found := Tree.word?_of_words? hdistances (by rwa [Array.getElem?_toList]) some
    exact ⟨found, proper.distances _ _ found⟩
  refine ⟨literal _ (Weights.whole_ofTokens tokens).ends, ?_⟩
  intro token listed
  have counts := Weights.counts_foldl Weights.whole_empty writable token listed
  cases token with
  | literal value => exact literal _ counts
  | copy length d => exact ⟨literal _ counts.1, distance _ counts.2⟩

/-! ## The fixed code -/

theorem fixedCodes_proper : fixedCodes.Proper where
  literals _ _ found :=
    Tree.word?_place_ne_nil (fun _ listed => (Tree.mem_canonicalOrder.1 listed).1) found
  distances _ _ found :=
    Tree.word?_place_ne_nil (fun _ listed => (Tree.mem_canonicalOrder.1 listed).1) found

theorem isSome_word?_fixed :
    (∀ symbol < literalSymbols, (fixedCodes.literals.word? symbol).isSome) ∧
      ∀ symbol < distanceSymbols, (fixedCodes.distances.word? symbol).isSome := by
  constructor
  · intro symbol inside
    exact Tree.isSome_word?_of_placed (by decide +kernel) (by decide +kernel)
      (Nat.lt_trans inside (by decide +kernel))
  · intro symbol inside
    exact Tree.isSome_word?_of_placed (by decide +kernel) (by decide +kernel)
      (Nat.lt_trans inside (by decide +kernel))

theorem getD_map_range {n symbol : Nat} (word? : Nat → Option (List Bool)) (inside : symbol < n)
    (found : (word? symbol).isSome) :
    word? symbol =
      some (((Array.range n).map fun symbol => (word? symbol).getD []).getD symbol []) := by
  obtain ⟨word, hword⟩ := Option.isSome_iff_exists.1 found
  simp [Array.getD, inside, hword]

theorem Words.literal_fixed {symbol : Nat} (inside : symbol < literalSymbols) :
    fixedCodes.literals.word? symbol = some (Words.fixed.literal symbol) := by
  rw [Words.literal, Words.fixed]
  exact getD_map_range fixedCodes.literals.word? inside (isSome_word?_fixed.1 _ inside)

theorem Words.distance_fixed {symbol : Nat} (inside : symbol < distanceSymbols) :
    fixedCodes.distances.word? symbol = some (Words.fixed.distance symbol) := by
  rw [Words.distance, Words.fixed]
  exact getD_map_range fixedCodes.distances.word? inside (isSome_word?_fixed.2 _ inside)

/-- The fixed code has a word for whatever can be written. -/
theorem Words.hasAll_fixed {tokens : List Token} (writable : ∀ token ∈ tokens, token.Writable) :
    Words.fixed.HasAll fixedCodes tokens := by
  have literal (symbol : Nat) (inside : symbol < literalSymbols) :
      Words.fixed.HasLiteral fixedCodes symbol :=
    ⟨literal_fixed inside, fixedCodes_proper.literals _ _ (literal_fixed inside)⟩
  have distance (symbol : Nat) (inside : symbol < distanceSymbols) :
      Words.fixed.HasDistance fixedCodes symbol :=
    ⟨distance_fixed inside, fixedCodes_proper.distances _ _ (distance_fixed inside)⟩
  refine ⟨literal endSymbol (by decide), ?_⟩
  intro token listed
  cases token with
  | literal value => exact literal _ (Nat.lt_trans value.toNat_lt (by decide))
  | copy length d =>
    obtain ⟨lower, upper, nearest, farthest⟩ := writable _ listed
    obtain ⟨hl, -⟩ := lengthSymbol_spec lower upper
    obtain ⟨hd, -⟩ := distanceSymbol_spec nearest farthest
    refine ⟨literal _ ?_, distance _ hd⟩
    rw [endSymbol, literalSymbols]
    omega

end Deflate

end ParallelGzip
