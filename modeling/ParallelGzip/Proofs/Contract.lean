import ParallelGzip.Proofs.Chain

set_option autoImplicit false

/-! # What the library's compressors promise

Whatever a compressor of the library has been given before, what it makes of a block is the whole
compressed form or, if that takes all the room, nothing. The compressed form is an open run of
blocks that puts out the block wherever the output so far ends with the window of the dictionary. So
blocks that have been compressed one behind the other, each with the end of the one before it as
dictionary, make a complete stream with the block behind them that ends compressed data. -/

namespace ParallelGzip

open Deflate (Inflater Inflates IsDeflated IsOpen)
open BlockCompressor (feed)

/-! ## The end of compressed data -/

/-- The block that ends compressed data is the last one of the format and puts out nothing. -/
theorem Deflate.block_emptyFinalBlock (position : Nat) (history : Array UInt8) :
    Block true position history ([true, true, false] ++ Words.fixed.literal endSymbol) [] := by
  have known : Words.fixed.HasAll fixedCodes [] := Words.hasAll_fixed fun token none => by cases none
  exact .fixed (.endOfBlock known.1.reads)

theorem Deflate.IsOpen.isDeflated_emptyFinalBlock {data output : Bytes}
    (isOpen : IsOpen data #[] output) : IsDeflated (data ++ Frame.emptyFinalBlock) output := by
  have whole := isOpen.isDeflated bitsOfBytes_emptyFinalBlock (by decide)
    (block_emptyFinalBlock _ _)
  rwa [List.append_nil] at whole

namespace DeflateCompressor

/-! ## One block -/

/-- The compressed form of a block, whatever room there is for it. -/
def form (level : Nat) (raw dictionary : Bytes) : Bytes :=
  Deflate.encode (Deflate.effort level) raw (windowOf dictionary)

/-- What becomes of a block does not depend on what the compressor has been given before. -/
theorem compress_feed (c : DeflateCompressor) (jobs : List (Bytes × Bytes))
    (raw dictionary : Bytes) :
    (BlockCompressor.compress (feed c jobs) raw dictionary).1 =
      if (form c.level raw dictionary).length < c.capacity then
        .block ⟨form c.level raw dictionary, crc32 raw 0, raw.length⟩
      else .failed (.overflow c.capacity) := by
  rw [feed_eq]
  by_cases fits : (form c.level raw dictionary).length < c.capacity
  · have room : ¬c.capacity ≤ (Deflate.encode (Deflate.effort c.level) raw
      (windowOf dictionary)).length := Nat.not_le.2 fits
    simp only [BlockCompressor.compress, compress, if_neg room, if_pos fits]
    rfl
  · have long : c.capacity ≤ (Deflate.encode (Deflate.effort c.level) raw
      (windowOf dictionary)).length := Nat.not_lt.1 fits
    simp only [BlockCompressor.compress, compress, if_pos long, if_neg fits]

/-- With the room that goes with the block size the compressed form always fits. -/
theorem compress_feed_of_le {level blockSize : Nat} {raw : Bytes} (fits : raw.length ≤ blockSize)
    (jobs : List (Bytes × Bytes)) (dictionary : Bytes) :
    (BlockCompressor.compress (feed (mk level (compressBufferSize blockSize)) jobs) raw
        dictionary).1 =
      .block ⟨form level raw dictionary, crc32 raw 0, raw.length⟩ := by
  rw [feed_eq, compress_eq fits]
  rfl

/-- The compressed form reaches back no further than the window of the dictionary. -/
theorem isOpen_form (level : Nat) (raw : Bytes) {dictionary : Bytes} {history : Array UInt8}
    (behind : windowOf dictionary <:+ history.toList) :
    IsOpen (form level raw dictionary) history raw := by
  obtain ⟨before, ends⟩ := behind
  exact Deflate.isOpen_encode _ raw _ ends.symm

theorem isOpen_of_compress {c : DeflateCompressor} {jobs : List (Bytes × Bytes)}
    {raw dictionary : Bytes} {compressed : CompressedBlock}
    (made : (BlockCompressor.compress (feed c jobs) raw dictionary).1 = .block compressed)
    {history : Array UInt8} (behind : windowOf dictionary <:+ history.toList) :
    IsOpen compressed.data history raw := by
  rw [compress_feed] at made
  split at made
  · cases made
    exact isOpen_form c.level raw behind
  · cases made

/-! ## Blocks one behind the other -/

/-- Blocks and what compressors of the library have made of them, each with the end of the block
    before it as dictionary. No matter which compressors these are and what they have been given
    before. -/
inductive Chained : (previous : Bytes) → List Bytes → List CompressedBlock → Prop
  | nil (previous : Bytes) : Chained previous [] []
  | cons {previous raw : Bytes} {compressed : CompressedBlock} {raws : List Bytes}
      {blocks : List CompressedBlock} (c : DeflateCompressor) (jobs : List (Bytes × Bytes))
      (made : (BlockCompressor.compress (feed c jobs) raw (windowOf previous)).1 = .block compressed)
      (next : Chained raw raws blocks) : Chained previous (raw :: raws) (compressed :: blocks)

/-- With the room that goes with the block size, any blocks can be chained. -/
theorem exists_chained (level blockSize : Nat) (previous : Bytes) {raws : List Bytes}
    (fits : ∀ raw ∈ raws, raw.length ≤ blockSize) : ∃ blocks, Chained previous raws blocks := by
  induction raws generalizing previous with
  | nil => exact ⟨[], .nil previous⟩
  | cons raw raws ih =>
    obtain ⟨blocks, chained⟩ := ih raw fun later mem => fits later (List.mem_cons_of_mem _ mem)
    have made := @compress_feed_of_le level _ _ (fits raw List.mem_cons_self) [] (windowOf previous)
    exact ⟨_, .cons _ [] made chained⟩

/-- Chained blocks are one open run behind whatever ends with the block before them. -/
theorem Chained.isOpen {previous : Bytes} {raws : List Bytes} {blocks : List CompressedBlock}
    (chained : Chained previous raws blocks) {history : Array UInt8}
    (behind : previous <:+ history.toList) :
    IsOpen (blocks.flatMap CompressedBlock.data) history raws.flatten := by
  induction chained generalizing history with
  | nil previous => exact .nil history
  | @cons previous raw compressed raws blocks c jobs made next ih =>
    have window : windowOf (windowOf previous) <:+ history.toList :=
      (windowOf_isSuffix _).trans ((windowOf_isSuffix previous).trans behind)
    have follows : raw <:+ (history ++ raw).toList := by
      rw [Array.toList_appendList]
      exact List.suffix_append _ _
    rw [List.flatMap_cons, List.flatten_cons]
    exact (isOpen_of_compress made window).append (ih follows)

/-- With its room a compressor of any level makes of a block the whole compressed form, and fails
    if it does not fit, whatever it has been given before. The form is an open run that inflates to
    the block behind any output that ends with the window of the dictionary. So chained blocks and
    the end of compressed data behind them are a stream that inflates to the blocks. -/
theorem compresses_open_runs (level : Nat) :
    (∀ raw dictionary : Bytes, ∃ data : Bytes,
      (∀ capacity jobs,
        (BlockCompressor.compress (feed (mk level capacity) jobs) raw dictionary).1 =
          if data.length < capacity then .block ⟨data, crc32 raw 0, raw.length⟩
          else .failed (.overflow capacity)) ∧
      ∀ before : Bytes, IsOpen data (before ++ windowOf dictionary).toArray raw ∧
        Inflates data (before ++ windowOf dictionary).toArray raw) ∧
    ∀ raws blocks, Chained [] raws blocks →
      IsDeflated (blocks.flatMap CompressedBlock.data ++ Frame.emptyFinalBlock) raws.flatten ∧
      ∀ rest, (Inflater.start #[]).drain
          (blocks.flatMap CompressedBlock.data ++ Frame.emptyFinalBlock ++ rest) =
        (.finished, ⟨.finished, [], raws.flatten.toArray⟩, rest) := by
  constructor
  · intro raw dictionary
    refine ⟨form level raw dictionary, fun capacity jobs => compress_feed _ jobs raw dictionary, ?_⟩
    intro before
    have isOpen : IsOpen (form level raw dictionary) (before ++ windowOf dictionary).toArray raw :=
      isOpen_form level raw (List.suffix_append before _)
    exact ⟨isOpen, isOpen.inflates⟩
  · intro raws blocks chained
    have isOpen : IsOpen (blocks.flatMap CompressedBlock.data) #[] raws.flatten :=
      chained.isOpen List.suffix_rfl
    exact ⟨isOpen.isDeflated_emptyFinalBlock, isOpen.isDeflated_emptyFinalBlock.drain⟩

/-- Two equal blocks, the second of which can be written as a copy of the first. -/
theorem compresses_open_runs_twice :
    ∃ blocks, Chained [] [[7, 7, 7, 7], [7, 7, 7, 7]] blocks ∧
      IsDeflated (blocks.flatMap CompressedBlock.data ++ Frame.emptyFinalBlock)
        [7, 7, 7, 7, 7, 7, 7, 7] := by
  obtain ⟨blocks, chained⟩ := exists_chained 6 4 []
    (show ∀ raw ∈ ([[7, 7, 7, 7], [7, 7, 7, 7]] : List Bytes), raw.length ≤ 4 by decide)
  exact ⟨blocks, chained, ((compresses_open_runs 6).2 _ _ chained).1⟩

end DeflateCompressor

end ParallelGzip
