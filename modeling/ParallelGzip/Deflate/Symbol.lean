import ParallelGzip.Deflate.Code

set_option autoImplicit false

/-! # Symbols: lengths, distances and the fixed code

Symbols below 256 are literals, 256 ends a block, and the others stand for the length of a match;
a second code stands for its distance. A length or distance symbol is a base and a number of extra
bits, which are added to the base. -/

namespace ParallelGzip

namespace Deflate

/-- The symbol that ends a block. -/
def endSymbol : Nat := 256

/-! ## Lengths -/

/-- The shortest match of each length symbol. -/
def lengthBases : Vector Nat 29 :=
  #v[3, 4, 5, 6, 7, 8, 9, 10, 11, 13, 15, 17, 19, 23, 27, 31, 35, 43, 51, 59, 67, 83, 99, 115, 131,
    163, 195, 227, 258]

/-- The number of extra bits of each length symbol. -/
def lengthExtras : Vector Nat 29 :=
  #v[0, 0, 0, 0, 0, 0, 0, 0, 1, 1, 1, 1, 2, 2, 2, 2, 3, 3, 3, 3, 4, 4, 4, 4, 5, 5, 5, 5, 0]

/-- The longest match. -/
def maxMatch : Nat := 258

theorem lengthBases_add_le (s : Fin 29) :
    lengthBases.get s + Nat.pow 2 (lengthExtras.get s) ≤ maxMatch + 1 := by
  revert s
  decide

/-- A match length. -/
abbrev MatchLength := Fin (maxMatch + 1)

/-- The length that a symbol and its extra bits stand for. -/
def lengthOf (s : Fin 29) (extra : Fin (Nat.pow 2 (lengthExtras.get s))) : MatchLength :=
  ⟨lengthBases.get s + extra.val, by
    have := lengthBases_add_le s
    have := extra.isLt
    omega⟩

/-! ## Distances -/

/-- The shortest distance of each distance symbol. -/
def distanceBases : Vector Nat 30 :=
  #v[1, 2, 3, 4, 5, 7, 9, 13, 17, 25, 33, 49, 65, 97, 129, 193, 257, 385, 513, 769, 1025, 1537,
    2049, 3073, 4097, 6145, 8193, 12289, 16385, 24577]

/-- The number of extra bits of each distance symbol. -/
def distanceExtras : Vector Nat 30 :=
  #v[0, 0, 0, 0, 1, 1, 2, 2, 3, 3, 4, 4, 5, 5, 6, 6, 7, 7, 8, 8, 9, 9, 10, 10, 11, 11, 12, 12, 13,
    13]

/-- The distance that a symbol and its extra bits stand for. -/
def distanceOf (s : Fin 30) (extra : Nat) : Nat := distanceBases.get s + extra

/-! ## Codes -/

/-- The two codes of a block. -/
structure Codes where
  literals : Tree
  distances : Tree

/-- The code lengths of literals and lengths in blocks with the fixed code. -/
def fixedLiteralLengths : List Nat :=
  List.replicate 144 8 ++ List.replicate 112 9 ++ List.replicate 24 7 ++ List.replicate 8 8

/-- The code lengths of distances in blocks with the fixed code. -/
def fixedDistanceLengths : List Nat := List.replicate 32 5

/-- The fixed code. -/
def fixedCodes : Codes where
  literals := (Tree.place (Tree.maxCodeLength + 1) 0 (Tree.canonicalOrder fixedLiteralLengths)).1
  distances := (Tree.place (Tree.maxCodeLength + 1) 0 (Tree.canonicalOrder fixedDistanceLengths)).1

end Deflate

end ParallelGzip
