import ParallelGzip.Deflate.Block
import ParallelGzip.Deflate.Huffman
import ParallelGzip.Deflate.Words

set_option autoImplicit false

/-! # Dynamic codes: codes made for one block

A dynamic block sends the lengths of its codes before its tokens. Runs of zero lengths are sent as
one item, and the items are written in a third code, whose lengths come first, three bits each. Each
of the three codes is built from its lengths as they are read, and a block gets a code of its own
only if its lengths can be sent and every symbol that is needed has a word in it. -/

namespace ParallelGzip

namespace Deflate

/-! ## Code lengths as items -/

/-- A part of a list of code lengths. -/
inductive LengthItem
  | length (n : Nat)
  /-- So many zeros, from 3 to 138. -/
  | zeros (count : Nat)

namespace LengthItem

/-- The symbol of an item. -/
def symbol : LengthItem → Nat
  | length n => n
  | zeros count => if count ≤ 10 then 17 else 18

/-- What follows the word of an item. -/
def extra : LengthItem → List Bool
  | length _ => []
  | zeros count => if count ≤ 10 then numberBits 3 (count - 3) else numberBits 7 (count - 11)

/-- The longest run of zeros in one item. -/
def maxZeros : Nat := 138

/-- A run of zeros as items. -/
def ofZeros (count : Nat) : List LengthItem :=
  if count < 3 then List.replicate count (length 0)
  else zeros (min count maxZeros) :: ofZeros (count - maxZeros)
termination_by count
decreasing_by
  simp only [maxZeros]
  omega

/-- A list of lengths as items, behind `before` zeros. -/
def ofLengths (before : Nat) : List Nat → List LengthItem
  | [] => ofZeros before
  | 0 :: lengths => ofLengths (before + 1) lengths
  | (n + 1) :: lengths => ofZeros before ++ length (n + 1) :: ofLengths 0 lengths

end LengthItem

/-! ## The code of a block -/

/-- A list without the zeros at its end, but at least `least` long. -/
def trimZeros (least : Nat) (lengths : List Nat) : List Nat :=
  lengths.take (max least (lengths.reverse.dropWhile (· = 0)).length)

/-- The greatest length of a word for code lengths. -/
def maxLengthLength : Nat := 7

/-- How often each symbol occurs in items. -/
def itemWeights (items : List LengthItem) : Array Nat :=
  items.foldl (fun weights item => weights.modify item.symbol (· + 1))
    (Array.replicate lengthLengthOrder.length 0)

/-- The bits of items. -/
def itemBits (words : Array (List Bool)) (items : List LengthItem) : List Bool :=
  items.flatMap fun item => words.getD item.symbol [] ++ item.extra

/-- The lengths of the words for code lengths as they are sent, the last zeros left out. -/
def sentLengths (weights : List Nat) : List Nat :=
  let lengths := (codeLengths maxLengthLength weights).toArray
  trimZeros 4 (lengthLengthOrder.map fun symbol => lengths.getD symbol 0)

/-- What is sent of the code of a block, and its words. -/
structure DynamicCode where
  description : List Bool
  words : Words

/-- A code made for a block with these weights. -/
def dynamicCode? (weights : Weights) : Option DynamicCode := do
  let literals := trimZeros (endSymbol + 1)
    (codeLengths Tree.maxCodeLength weights.literals.toList)
  let distances := trimZeros 1 (codeLengths Tree.maxCodeLength weights.distances.toList)
  let literalTree ← Tree.ofDataLengths? literals
  let distanceTree ← Tree.ofDataLengths? distances
  let words ← Words.ofCodes? ⟨literalTree, distanceTree⟩ weights
  guard ((literals ++ distances).all (· ≤ Tree.maxCodeLength))
  let items := LengthItem.ofLengths 0 (literals ++ distances)
  let counts := (itemWeights items).toList
  let sent := sentLengths counts
  guard (sent.all (· ≤ maxLengthLength))
  let itemTree ← Tree.ofLengthLengths? (sortLengthLengths sent)
  let itemWords ← itemTree.words? counts
  return {
    description := numberBits 5 (literals.length - (endSymbol + 1))
      ++ numberBits 5 (distances.length - 1) ++ numberBits 4 (sent.length - 4)
      ++ sent.flatMap (numberBits 3) ++ itemBits itemWords items
    words := words }

end Deflate

end ParallelGzip
