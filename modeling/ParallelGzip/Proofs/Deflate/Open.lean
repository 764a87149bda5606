import ParallelGzip.Proofs.Deflate.Grammar

set_option autoImplicit false

/-! # Open runs of blocks

A compressor cannot know which of its blocks is the last, so what it puts out is a run of whole
blocks that is left open: none of them says that it is the last, and the run ends on a byte
boundary. `OpenBlocks` is such a run in the format, without a reader, and `IsOpen` says of bytes
that they are one wherever they begin on a byte boundary. Runs can be put one behind the other, and
the last block of a stream can follow; an inflater comes through a run to the next block
boundary. -/

namespace ParallelGzip

namespace Deflate

open Inflater (Leads)

/-- Whole blocks behind so many bits and this history, none of which is the last, and what they put
    out. -/
inductive OpenBlocks : Nat → Array UInt8 → List Bool → Bytes → Prop
  | nil (position : Nat) (history : Array UInt8) : OpenBlocks position history [] []
  | cons {position : Nat} {history : Array UInt8} {bits bits' : List Bool} {output output' : Bytes}
      (block : Block false position history bits output)
      (next : OpenBlocks (position + bits.length) (history ++ output) bits' output') :
      OpenBlocks position history (bits ++ bits') (output ++ output')

namespace OpenBlocks

variable {position : Nat} {history : Array UInt8} {bits bits' more : List Bool}
  {output output' : Bytes}

theorem append (first : OpenBlocks position history bits output)
    (second : OpenBlocks (position + bits.length) (history ++ output) bits' output') :
    OpenBlocks position history (bits ++ bits') (output ++ output') := by
  induction first with
  | nil position history => simpa using second
  | cons block next ih =>
    rw [List.length_append, ← Nat.add_assoc, appendList_append] at second
    rw [List.append_assoc, List.append_assoc]
    exact .cons block (ih second)

theorem one (block : Block false position history bits output) :
    OpenBlocks position history bits output := by
  have alone := OpenBlocks.cons block (.nil _ _)
  rwa [List.append_nil, List.append_nil] at alone

/-- Behind an open run the blocks of a stream can go on up to the last one. -/
theorem blocks (first : OpenBlocks position history bits output)
    (last : Blocks (position + bits.length) (history ++ output) bits' output') :
    Blocks position history (bits ++ bits') (output ++ output') := by
  induction first with
  | nil position history => simpa using last
  | cons block next ih =>
    rw [List.length_append, ← Nat.add_assoc, appendList_append] at last
    rw [List.append_assoc, List.append_assoc]
    exact .cons block (ih last)

theorem leads (blocks : OpenBlocks position history bits output)
    (aligned : 8 ∣ position + (bits ++ more).length) :
    Leads ⟨.reading readHeader, history, bits ++ more, []⟩ output.length
      ⟨.reading readHeader, history ++ output, more, []⟩ := by
  induction blocks with
  | nil position history =>
    rw [Array.appendList_nil]
    exact .refl _
  | @cons position history bits bits' output output' block next ih =>
    rw [List.append_assoc] at aligned ⊢
    rw [List.length_append, appendList_append]
    have later : 8 ∣ position + bits.length + (bits' ++ more).length := by
      rwa [List.length_append, ← Nat.add_assoc] at aligned
    exact (block.leads aligned).trans (ih later)

end OpenBlocks

/-- At a byte boundary behind this history the data is whole blocks, none of which is the last, and
    they put out these bytes. -/
def IsOpen (data : Bytes) (history : Array UInt8) (output : Bytes) : Prop :=
  ∀ position, 8 ∣ position → OpenBlocks position history (bitsOfBytes data) output

namespace IsOpen

variable {data first second output more : Bytes} {history : Array UInt8}

theorem nil (history : Array UInt8) : IsOpen [] history [] := fun position _ => .nil position history

/-- Bytes end on a byte boundary, so that a run can follow. -/
theorem append (hfirst : IsOpen first history output)
    (hsecond : IsOpen second (history ++ output) more) :
    IsOpen (first ++ second) history (output ++ more) := by
  intro position aligned
  rw [bitsOfBytes_append]
  refine (hfirst position aligned).append (hsecond _ ?_)
  rw [length_bitsOfBytes]
  omega

/-- Blocks that put out nothing more can follow. -/
theorem append_nil (hfirst : IsOpen first history output)
    (hsecond : IsOpen second (history ++ output) []) : IsOpen (first ++ second) history output :=
  List.append_nil output ▸ hfirst.append hsecond

/-- An inflater gets through an open run. -/
theorem inflates (isOpen : IsOpen data history output) : Inflates data history output := by
  intro rest held input ahead
  have whole := ahead.whole
  rw [List.nil_append, bitsOfBytes_append] at whole
  have aligned : 8 ∣ 0 + (bitsOfBytes data ++ bitsOfBytes rest).length := by
    rw [List.length_append, length_bitsOfBytes, length_bitsOfBytes]
    omega
  obtain ⟨held', input', ahead', run⟩ :=
    (isOpen 0 (Nat.dvd_zero 8)).leads aligned held input whole
  -- what is left of the bits is whole bytes
  obtain ⟨bytes, same, ahead'⟩ := Inflater.Ahead.realign
    (List.nil_append (bitsOfBytes rest) ▸ ahead') ⟨rest.length, length_bitsOfBytes rest⟩
  exact ⟨held', input', bitsOfBytes_injective same ▸ ahead', run⟩

/-- With a last block behind it an open run is a complete stream. -/
theorem isDeflated {last : Bytes} {bits padding : List Bool} (isOpen : IsOpen data #[] output)
    (split : bitsOfBytes last = bits ++ padding) (few : padding.length < 8)
    (block : Block true (8 * data.length) ((#[] : Array UInt8) ++ output) bits more) :
    IsDeflated (data ++ last) (output ++ more) := by
  refine ⟨bitsOfBytes data ++ bits, padding, ?_, few, ?_⟩
  · rw [bitsOfBytes_append, split, List.append_assoc]
  · refine (isOpen 0 (Nat.dvd_zero 8)).blocks (.last ?_)
    rwa [length_bitsOfBytes, Nat.zero_add]

end IsOpen

/-! ## Stored blocks -/

theorem isOpen_storedBlock (piece : Bytes) (short : piece.length ≤ maxStored)
    (history : Array UInt8) : IsOpen (storedBlock piece) history piece := by
  intro position aligned
  have zeros : bitsOfBytes [0] = [false, false, false] ++ List.replicate 5 false := by decide
  have bits : bitsOfBytes (storedBlock piece) = [false, false, false] ++ List.replicate 5 false ++
      bitsOfBytes (Bytes.littleEndian 2 piece.length
        ++ Bytes.littleEndian 2 (maxStored - piece.length) ++ piece) := by
    rw [← zeros, ← bitsOfBytes_append, storedBlock]
    simp only [List.append_assoc]
  rw [bits]
  refine .one (.stored (by decide) ?_ short)
  rw [List.length_replicate]
  omega

theorem isOpen_syncMark (history : Array UInt8) : IsOpen syncMark history [] :=
  isOpen_storedBlock [] (Nat.zero_le _) history

theorem isOpen_store (data : Bytes) (history : Array UInt8) : IsOpen (store data) history data := by
  fun_induction store data generalizing history with
  | case1 => exact .nil history
  | case2 data nonempty ih =>
    have first := isOpen_storedBlock (data.take maxStored)
      (by rw [List.length_take]; exact Nat.min_le_left _ _) history
    have together := first.append (ih (history ++ data.take maxStored))
    rwa [List.take_append_drop] at together

theorem inflates_store (data : Bytes) (history : Array UInt8) :
    Inflates (store data) history data := (isOpen_store data history).inflates

end Deflate

end ParallelGzip
