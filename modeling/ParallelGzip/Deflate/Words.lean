import ParallelGzip.Deflate.Bits
import ParallelGzip.Deflate.Match

set_option autoImplicit false

/-! # Words: how tokens are written in a code

The word of a symbol is the path to its leaf in the tree of the code, so that reading the word with
the tree gives the symbol back. A token is one word and extra bits, or two of each. -/

namespace ParallelGzip

namespace Deflate

/-- The bits that lead to a symbol. -/
def Tree.word? (symbol : Nat) : Tree → Option (List Bool)
  | empty => none
  | leaf s => if s = symbol then some [] else none
  | node zero one =>
    match zero.word? symbol with
    | some word => some (false :: word)
    | none => (one.word? symbol).map (true :: ·)

/-- The words of the symbols with a weight, unless one of them has none. -/
def Tree.words? (tree : Tree) (weights : List Nat) : Option (Array (List Bool)) :=
  (weights.zipIdx.mapM fun (weight, symbol) =>
    if weight = 0 then some [] else tree.word? symbol).map List.toArray

/-! ## Symbols of tokens -/

/-- The last symbol whose base is not greater than a value. -/
def symbolFor (bases : List Nat) (value : Nat) : Nat :=
  (bases.takeWhile (· ≤ value)).length - 1

/-- The length symbol of a match, counted from 0. -/
def lengthSymbol (length : Nat) : Nat := symbolFor lengthBases.toList length

/-- The distance symbol of a match. -/
def distanceSymbol (distance : Nat) : Nat := symbolFor distanceBases.toList distance

/-- How many symbols there are for literals, the end of a block and lengths. -/
def literalSymbols : Nat := 286

/-- How many symbols there are for distances. -/
def distanceSymbols : Nat := 30

/-- How often each symbol occurs in a block. -/
structure Weights where
  literals : Array Nat
  distances : Array Nat

namespace Weights

/-- The weights of a block without tokens: it has its end. -/
def empty : Weights where
  literals := (Array.replicate literalSymbols 0).setIfInBounds endSymbol 1
  distances := Array.replicate distanceSymbols 0

/-- Count one token more. -/
def add (weights : Weights) (token : Token) : Weights :=
  match weights, token with
  | ⟨literals, distances⟩, .literal value => ⟨literals.modify value.toNat (· + 1), distances⟩
  | ⟨literals, distances⟩, .copy length distance =>
    ⟨literals.modify (endSymbol + 1 + lengthSymbol length) (· + 1),
      distances.modify (distanceSymbol distance) (· + 1)⟩

/-- The weights of a block with these tokens. -/
def ofTokens (tokens : List Token) : Weights := tokens.foldl add empty

/-- The number of extra bits in the block. -/
def extraBits (weights : Weights) : Nat :=
  let sum (counts extras : List Nat) : Nat :=
    (counts.zip extras).foldl (fun n (count, extra) => n + count * extra) 0
  sum (weights.literals.toList.drop (endSymbol + 1)) lengthExtras.toList
    + sum weights.distances.toList distanceExtras.toList

end Weights

/-! ## Words of tokens -/

/-- The words of the symbols of a block. -/
structure Words where
  literals : Array (List Bool)
  distances : Array (List Bool)

namespace Words

/-- The words of the symbols with a weight in two codes, unless one of them has none. -/
def ofCodes? (codes : Codes) (weights : Weights) : Option Words := do
  let literals ← codes.literals.words? weights.literals.toList
  let distances ← codes.distances.words? weights.distances.toList
  return ⟨literals, distances⟩

/-- The word of a literal, the end of a block or a length. -/
def literal (words : Words) (symbol : Nat) : List Bool := words.literals.getD symbol []

/-- The word of a distance. -/
def distance (words : Words) (symbol : Nat) : List Bool := words.distances.getD symbol []

/-- The number of bits of a block with these weights in these words, without extra bits. -/
def cost (words : Words) (weights : Weights) : Nat :=
  let sum (counts : Array Nat) (words : Array (List Bool)) : Nat :=
    (counts.zip words).foldl (fun n (count, word) => n + count * word.length) 0
  sum weights.literals words.literals + sum weights.distances words.distances

/-- The words of the fixed code. -/
def fixed : Words where
  literals := (Array.range literalSymbols).map fun symbol =>
    (fixedCodes.literals.word? symbol).getD []
  distances := (Array.range distanceSymbols).map fun symbol =>
    (fixedCodes.distances.word? symbol).getD []

end Words

/-- The bits of a token. -/
def Token.bits (words : Words) : Token → List Bool
  | literal value => words.literal value.toNat
  | copy length distance =>
    let l := lengthSymbol length
    let d := distanceSymbol distance
    words.literal (endSymbol + 1 + l)
      ++ numberBits (lengthExtras.toArray.getD l 0) (length - lengthBases.toArray.getD l 0)
      ++ words.distance d
      ++ numberBits (distanceExtras.toArray.getD d 0) (distance - distanceBases.toArray.getD d 0)

end Deflate

end ParallelGzip
