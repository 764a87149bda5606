import ParallelGzip.Bytes

set_option autoImplicit false

/-! # Stored blocks: bytes as they are

A stored block at a byte boundary is a byte with its header bits, its length, the complement of the
length, and the bytes themselves. Longer data takes several blocks; no data takes none. -/

namespace ParallelGzip

namespace Deflate

/-- The longest stored block. -/
def maxStored : Nat := 65535

/-- A stored block that is not the last, at a byte boundary. -/
def storedBlock (piece : Bytes) : Bytes :=
  [0] ++ Bytes.littleEndian 2 piece.length ++ Bytes.littleEndian 2 (maxStored - piece.length)
    ++ piece

/-- Bytes as stored blocks. -/
def store (data : Bytes) : Bytes :=
  if data = [] then []
  else storedBlock (data.take maxStored) ++ store (data.drop maxStored)
termination_by data.length
decreasing_by
  have : 0 < data.length := List.length_pos_iff.2 (by assumption)
  simp only [List.length_drop, maxStored]
  omega

/-- The stored block without content: it moves to a byte boundary and says nothing. -/
def syncMark : Bytes := storedBlock []

end Deflate

end ParallelGzip
