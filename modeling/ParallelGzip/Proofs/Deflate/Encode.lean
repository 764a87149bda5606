import ParallelGzip.Proofs.Deflate.Dynamic
import ParallelGzip.Proofs.Deflate.Match
import ParallelGzip.Proofs.Deflate.Open

set_option autoImplicit false

/-! # Compressed data inflates to what was compressed

Whichever way a block is written, it is an open run of blocks of the format, and where the output so
far ends with the dictionary, the run puts out the block. So an inflater that has put out the
dictionary puts out the block behind it and stands at a block boundary again. -/

namespace ParallelGzip

namespace Deflate

/-! ## Coded blocks -/

/-- Header bits with which a block in these codes begins. -/
def Opens (headerBits : List Bool) (codes : Codes) : Prop :=
  (Parser.need 1 readHeader).Reads headerBits (.codedHeader codes false)

theorem opens_fixed : Opens fixedHeaderBits fixedCodes :=
  .need ((reads_readBits 2 1 (by decide)).bind_done rfl)

theorem opens_dynamic {description : List Bool} {codes : Codes}
    (reads : readDynamicCodes.Reads description codes) :
    Opens (dynamicHeaderBits ++ description) codes :=
  .need ((reads_readBits 2 2 (by decide)).bind (reads.bind_done rfl))

/-- Symbols behind such header bits make a block that is not the last. -/
theorem Opens.block {headerBits bits : List Bool} {codes : Codes} {history : Array UInt8}
    {output : Bytes} (opens : Opens headerBits codes) (position : Nat)
    (symbols : Symbols codes history bits output) :
    Block false position history (headerBits ++ bits) output := by
  obtain ⟨final, ⟨rfl, event⟩ | ⟨rfl, event⟩ | ⟨_, description, rfl, describes, event⟩⟩ :=
    reads_header_iff.1 opens
  · cases event
  · cases event
    exact .fixed symbols
  · cases event
    exact .dynamic describes symbols

variable {text : Array UInt8} {pos stop : Nat} {tokens : List Token} {history : Array UInt8}
  {base : Bytes}

/-- A coded block and the stored block without content behind it. -/
theorem isOpen_encodeTokens {headerBits : List Bool} {words : Words} {codes : Codes}
    (opens : Opens headerBits codes) (has : words.HasAll codes tokens)
    (cuts : Cuts text pos tokens stop) (le : pos ≤ text.size)
    (before : history.toList = base ++ text.toList.take pos) :
    IsOpen (encodeTokens headerBits words tokens) history
      ((text.toList.drop pos).take (tokensLength tokens)) := by
  intro position aligned
  have symbols := cuts.symbols has.2 le before (.endOfBlock has.1.reads)
  have block := opens.block position symbols
  -- the bits of the block, and behind the header of the stored block zeros up to the next byte
  let coded := headerBits ++ (tokens.flatMap (Token.bits words) ++ words.literal endSymbol)
  let zeros := List.replicate (padding (coded ++ storedHeaderBits).length) false
  have few : zeros.length < 8 := by
    rw [List.length_replicate]
    exact padding_lt _
  have boundary : 8 ∣ position + coded.length + 3 + zeros.length := by
    have header : (coded ++ storedHeaderBits).length = coded.length + 3 := List.length_append
    rw [List.length_replicate, header, padding]
    omega
  have mark : Block false (position + coded.length)
      (history ++ ((text.toList.drop pos).take (tokensLength tokens) ++ []))
      (storedHeaderBits ++ zeros ++ bitsOfBytes (syncMark.drop 1)) [] :=
    .stored few boundary (Nat.zero_le _)
  have bits : bitsOfBytes (encodeTokens headerBits words tokens) =
      coded ++ (storedHeaderBits ++ zeros ++ bitsOfBytes (syncMark.drop 1)) := by
    rw [encodeTokens, bitsOfBytes_append, bitsOfBytes_pack]
    simp only [coded, zeros, List.append_assoc]
  have both := OpenBlocks.cons block (.one mark)
  rwa [← bits, List.append_nil, List.append_nil] at both

/-- The coding chosen for some tokens can be read back. -/
def Coding.Readable (coding : Coding) (tokens : List Token) : Prop :=
  ∃ codes, Opens coding.headerBits codes ∧ coding.words.HasAll codes tokens

theorem readable_fixed (writable : ∀ token ∈ tokens, token.Writable) (cost : Nat) :
    Coding.Readable ⟨fixedHeaderBits, .fixed, cost⟩ tokens :=
  ⟨fixedCodes, opens_fixed, Words.hasAll_fixed writable⟩

theorem readable_chooseCoding (writable : ∀ token ∈ tokens, token.Writable) :
    (chooseCoding tokens).Readable tokens := by
  unfold chooseCoding
  dsimp only
  split
  · exact readable_fixed writable _
  · next code made =>
    split
    · obtain ⟨codes, proper, reads, words?⟩ :=
        reads_description (Weights.whole_ofTokens tokens) made
      exact ⟨codes, opens_dynamic reads, Words.hasAll_of_ofCodes? proper words? writable⟩
    · exact readable_fixed writable _

theorem isOpen_encodeCoded? {limit : Nat} {coded : Bytes}
    (made : encodeCoded? tokens limit = some coded) (cuts : Cuts text pos tokens stop)
    (le : pos ≤ text.size) (before : history.toList = base ++ text.toList.take pos) :
    IsOpen coded history ((text.toList.drop pos).take (tokensLength tokens)) := by
  have readable : (if tokens.length < fewTokens then ⟨fixedHeaderBits, .fixed, 0⟩
      else chooseCoding tokens : Coding).Readable tokens := by
    split
    · exact readable_fixed cuts.writable 0
    · exact readable_chooseCoding cuts.writable
  unfold encodeCoded? at made
  dsimp only at made
  generalize (if tokens.length < fewTokens then ⟨fixedHeaderBits, .fixed, 0⟩
    else chooseCoding tokens : Coding) = coding at made readable
  obtain ⟨codes, opens, has⟩ := readable
  split at made
  · split at made
    · cases made
      exact isOpen_encodeTokens opens has cuts le before
    · cases made
  · cases made

/-! ## Blocks -/

theorem isOpen_encodeBlock (mark : Bytes) (hmark : ∀ history, IsOpen mark history [])
    (cuts : Cuts text pos tokens stop) (le : pos ≤ text.size)
    (before : history.toList = base ++ text.toList.take pos) :
    IsOpen (encodeBlock tokens ((text.toList.drop pos).take (tokensLength tokens)) mark) history
      ((text.toList.drop pos).take (tokensLength tokens)) := by
  unfold encodeBlock
  dsimp only
  cases made : encodeCoded? tokens (store ((text.toList.drop pos).take (tokensLength tokens))
    ++ mark).length with
  | some coded => exact isOpen_encodeCoded? made cuts le before
  | none => exact (isOpen_store _ history).append_nil (hmark _)

theorem isOpen_encodeBlocks {raw : Bytes} (cuts : Cuts text pos tokens stop)
    (le : pos ≤ text.size) (before : history.toList = base ++ text.toList.take pos)
    (hraw : raw = (text.toList.drop pos).take (tokensLength tokens)) :
    IsOpen (encodeBlocks tokens raw) history raw := by
  fun_induction encodeBlocks tokens raw generalizing pos history with
  | case1 tokens raw few =>
    subst hraw
    exact isOpen_encodeBlock syncMark isOpen_syncMark cuts le before
  | case2 tokens raw many first =>
    rename_i n ih
    -- the tokens of the first block stand for the first bytes of what is to be written
    rw [← List.take_append_drop maxBlockTokens tokens] at cuts
    obtain ⟨middle, hfirst, hsecond⟩ := cuts.split
    have hmiddle : middle = pos + n := hfirst.stop_eq
    have inside := hfirst.stop_le le
    subst hmiddle
    have lengths : tokensLength tokens = n + tokensLength (tokens.drop maxBlockTokens) := by
      rw [← tokensLength_append, List.take_append_drop]
    have now : raw.take n = (text.toList.drop pos).take n := by
      rw [hraw, List.take_take, lengths, Nat.min_eq_left (Nat.le_add_right _ _)]
    have later : raw.drop n = (text.toList.drop (pos + n)).take
        (tokensLength (tokens.drop maxBlockTokens)) := by
      rw [hraw, lengths, List.drop_take, List.drop_drop, Nat.add_sub_cancel_left]
    have block := isOpen_encodeBlock [] (fun history => .nil history) hfirst le before
    have after : (history ++ raw.take n).toList = base ++ text.toList.take (pos + n) := by
      rw [Array.toList_appendList, before, now, List.append_assoc, ← List.take_add]
    have whole := (now ▸ block).append (ih hsecond inside after later)
    rwa [List.take_append_drop] at whole

/-- Compressed data is an open run, and it puts out what was compressed if the output so far ends
    with the dictionary. -/
theorem isOpen_encode (effort : Nat) (raw dictionary : Bytes)
    (before : history.toList = base ++ dictionary) :
    IsOpen (encode effort raw dictionary) history raw := by
  have stored : IsOpen (store raw ++ syncMark) history raw :=
    (isOpen_store raw history).append_nil (isOpen_syncMark _)
  unfold encode
  dsimp only
  split
  · exact stored
  · split
    · have cuts := cuts_tokens effort dictionary raw
      have behind : raw = ((dictionary.toArray ++ raw.toArray).toList.drop dictionary.length).take
          (tokensLength (tokens effort dictionary raw.toArray raw.length raw.length)) := by
        have count := cuts.stop_eq
        simp [Nat.add_left_cancel count.symm]
      have window : history.toList =
          base ++ (dictionary.toArray ++ raw.toArray).toList.take dictionary.length := by
        simpa using before
      exact isOpen_encodeBlocks cuts (by simp) window behind
    · exact stored

theorem inflates_encode (effort : Nat) (raw dictionary : Bytes)
    (before : history.toList = base ++ dictionary) :
    Inflates (encode effort raw dictionary) history raw :=
  (isOpen_encode effort raw dictionary before).inflates

/-! ## How long compressed data is -/

theorem length_store (data : Bytes) :
    (store data).length = data.length + 5 * ((data.length + 65534) / 65535) := by
  fun_induction store data with
  | case1 => rfl
  | case2 data nonempty ih =>
    have some : 0 < data.length := List.length_pos_iff.2 nonempty
    have limit : maxStored = 65535 := rfl
    simp only [List.length_append, ih, storedBlock, Bytes.length_littleEndian, List.length_take,
      List.length_drop, List.length_cons, List.length_nil]
    omega

/-- Compressed data is never longer than the same data stored. -/
theorem length_encode_le_stored (effort : Nat) (raw dictionary : Bytes) :
    (encode effort raw dictionary).length ≤ (store raw ++ syncMark).length := by
  unfold encode
  dsimp only
  split
  · exact Nat.le_refl _
  · split
    · next short => exact short
    · exact Nat.le_refl _

theorem length_encode_le (effort : Nat) (raw dictionary : Bytes) :
    (encode effort raw dictionary).length ≤
      raw.length + 5 * ((raw.length + 65534) / 65535) + 5 := by
  have mark : syncMark.length = 5 := rfl
  calc (encode effort raw dictionary).length
      ≤ (store raw ++ syncMark).length := length_encode_le_stored effort raw dictionary
    _ = raw.length + 5 * ((raw.length + 65534) / 65535) + 5 := by
        rw [List.length_append, length_store, mark]

end Deflate

end ParallelGzip
