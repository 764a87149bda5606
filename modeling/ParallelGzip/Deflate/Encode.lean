import ParallelGzip.Deflate.Dynamic
import ParallelGzip.Deflate.Store

set_option autoImplicit false

/-! # Encoding: from bytes to compressed data

Bytes are cut into blocks of so many tokens. A block is written in a code of its own, in the fixed
code or stored, whichever is shortest. Each way it ends on a byte boundary, a coded block because a
stored block without content follows it, so that blocks can be put one after the other. -/

namespace ParallelGzip

namespace Deflate

/-! ## Coded blocks -/

/-- The header of a block in the fixed code that is not the last. -/
def fixedHeaderBits : List Bool := [false, true, false]

/-- The header of a block in a code of its own that is not the last. -/
def dynamicHeaderBits : List Bool := [false, false, true]

/-- The header of a stored block that is not the last. -/
def storedHeaderBits : List Bool := [false, false, false]

/-- Tokens as a block up to the byte boundary behind the header of a stored block, and the stored
    block without content. -/
def encodeTokens (headerBits : List Bool) (words : Words) (tokens : List Token) : Bytes :=
  pack (headerBits ++ tokens.flatMap (Token.bits words) ++ words.literal endSymbol
    ++ storedHeaderBits) ++ syncMark.drop 1

/-- Below so many tokens a code of its own is longer than what it saves. -/
def fewTokens : Nat := 16

/-- How a coded block is written: its header bits, its words, and the bits it takes with them. -/
structure Coding where
  headerBits : List Bool
  words : Words
  cost : Nat

/-- The coding in which a block of many tokens is shortest. -/
def chooseCoding (tokens : List Token) : Coding :=
  let weights := Weights.ofTokens tokens
  let coding (headerBits : List Bool) (words : Words) : Coding :=
    ⟨headerBits, words, headerBits.length + words.cost weights + weights.extraBits⟩
  let fixed := coding fixedHeaderBits .fixed
  match dynamicCode? weights with
  | none => fixed
  | some code =>
    let own := coding (dynamicHeaderBits ++ code.description) code.words
    if own.cost < fixed.cost then own else fixed

/-- Tokens as a block that takes fewer than `limit` bytes, if there is one. -/
def encodeCoded? (tokens : List Token) (limit : Nat) : Option Bytes :=
  let coding :=
    if tokens.length < fewTokens then ⟨fixedHeaderBits, .fixed, 0⟩ else chooseCoding tokens
  if coding.cost < 8 * limit then
    let coded := encodeTokens coding.headerBits coding.words tokens
    if coded.length < limit then some coded else none
  else none

/-! ## Blocks -/

/-- Tokens as a block, or the bytes they stand for stored and followed by `mark`, whichever is
    shorter. -/
def encodeBlock (tokens : List Token) (raw mark : Bytes) : Bytes :=
  let stored := store raw ++ mark
  (encodeCoded? tokens stored.length).getD stored

/-- The most tokens of a block. -/
def maxBlockTokens : Nat := 16383

/-- Tokens as blocks, the last of which is marked by a stored block without content; `raw` is what
    they stand for. -/
def encodeBlocks (tokens : List Token) (raw : Bytes) : Bytes :=
  if _h : tokens.length ≤ maxBlockTokens then encodeBlock tokens raw syncMark
  else
    let first := tokens.take maxBlockTokens
    let n := tokensLength first
    encodeBlock first (raw.take n) [] ++ encodeBlocks (tokens.drop maxBlockTokens) (raw.drop n)
termination_by tokens.length
decreasing_by
  rw [List.length_drop]
  have : 0 < maxBlockTokens := by decide
  omega

/-- How much is done at a level to find matches. Level 0 does nothing and only stores; the least
    effort would find too little, so level 1 makes that of level 2. -/
def effort (level : Nat) : Nat := if level = 1 then 2 else level

/-- Compress `raw` as open blocks that end on a byte boundary and may reach back into `dictionary`,
    or store it where that is shorter. -/
def encode (effort : Nat) (raw dictionary : Bytes) : Bytes :=
  let stored := store raw ++ syncMark
  if effort = 0 ∨ raw = [] then stored
  else
    let length := raw.length
    let coded := encodeBlocks (tokens effort dictionary raw.toArray length length) raw
    if coded.length ≤ stored.length then coded else stored

end Deflate

end ParallelGzip
