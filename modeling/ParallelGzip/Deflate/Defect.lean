set_option autoImplicit false

/-! # Defects: why data is not a compressed stream -/

namespace ParallelGzip

namespace Deflate

/-- A reason for refusing compressed data. -/
inductive Defect
  /-- The block type 3 does not exist. -/
  | blockType
  /-- The length of a stored block and its complement do not fit. -/
  | storedLength
  /-- A dynamic block announces more symbols than there are. -/
  | tooManySymbols
  /-- The code for the code lengths is over-subscribed or incomplete. -/
  | lengthCode
  /-- A repetition of code lengths repeats nothing or too much. -/
  | repetition
  /-- There is no code for the end of the block. -/
  | noEndOfBlock
  /-- The code for literals and lengths is over-subscribed or incomplete. -/
  | literalCode
  /-- The code for distances is over-subscribed or incomplete. -/
  | distanceCode
  /-- Bits that are no literal, length or end of block. -/
  | literal
  /-- Bits that are no distance. -/
  | distance
  /-- A distance beyond the beginning. -/
  | tooFar
  deriving DecidableEq, Repr

end Deflate

end ParallelGzip
