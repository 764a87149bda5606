import ParallelGzip.Deflate.Encode
import ParallelGzip.Proofs.Deflate.Inflate

set_option autoImplicit false

/-! # Stored blocks are passed on

The lengths of a stored block are read, and its bytes are put out as they are. -/

namespace ParallelGzip

namespace Deflate

open Inflater (Leads)

/-- The lengths of a stored block are the same length twice. -/
theorem reads_storedLengths {length : Nat} (short : length ≤ maxStored) (want : Nat)
    (final : Bool) :
    (Parser.need want (readStoredLengths final)).Reads
      (numberBits 16 length ++ numberBits 16 (maxStored - length)) (.storedBytes length final) := by
  have limit : maxStored = 65535 := rfl
  have pow15 : Nat.pow 2 15 = 32768 := rfl
  have pow16 : Nat.pow 2 16 = 65536 := rfl
  have whole : (decide (length % 2 = 1)).toNat + 2 * (length / 2) = length := by
    rcases Nat.mod_two_eq_zero_or_one length with even | odd
    · simp only [even, Nat.zero_ne_one, decide_false, Bool.toNat_false]
      omega
    · simp only [odd, decide_true, Bool.toNat_true]
      omega
  refine .need ((reads_readBits 15 (length / 2) (by omega)).bind ?_)
  refine (reads_readBits 16 (maxStored - length) (by omega)).bind_done ?_
  simp only [whole]
  rw [if_pos (by omega)]

/-- What follows the header of a stored block. -/
theorem leads_storedLengths (piece : Bytes) (short : piece.length ≤ maxStored)
    (history : Array UInt8) (rest : Bytes) (final : Bool) :
    Leads ⟨.reading (readStoredLengths final), history, [],
        Bytes.littleEndian 2 piece.length ++ Bytes.littleEndian 2 (maxStored - piece.length)
          ++ (piece ++ rest)⟩ piece.length
      ⟨.afterBlock final, history ++ piece, [], rest⟩ := by
  have lengths := reads_storedLengths short 1 final
  have fields := Leads.bytes (.reading (readStoredLengths final)) history
    (Bytes.littleEndian 2 piece.length ++ Bytes.littleEndian 2 (maxStored - piece.length))
    (piece ++ rest)
  rw [bitsOfBytes_append, bitsOfBytes_littleEndian, bitsOfBytes_littleEndian] at fields
  have taken := Leads.reads history [] (piece ++ rest) (.store piece.length final) lengths
    fun _ => rfl
  rw [List.append_nil] at taken
  exact fields.zero_trans (taken.zero_trans (.store piece rest))

end Deflate

end ParallelGzip
