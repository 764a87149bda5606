import ParallelGzip.Deflate.Code

set_option autoImplicit false

/-! # Huffman lengths: short words for frequent symbols

The lengths of a code are the depths of the symbols in a tree that grows by joining the two lightest
trees of a forest, over and over. They are a proposal: whoever uses them builds the code from them
and takes it only if it has a word for every symbol that is needed. So the choice decides how well
text is compressed but not what it means. -/

namespace ParallelGzip

namespace Deflate

/-- A tree that is being put together. -/
inductive Growth
  | symbol (s : Nat)
  | join (left right : Growth)

namespace Growth

/-- Put a tree with its weight into a forest ordered by weight. -/
def insert (tree : Nat × Growth) : List (Nat × Growth) → List (Nat × Growth)
  | [] => [tree]
  | first :: rest =>
    if tree.1 ≤ first.1 then tree :: first :: rest else first :: insert tree rest

theorem length_insert (tree : Nat × Growth) (forest : List (Nat × Growth)) :
    (insert tree forest).length = forest.length + 1 := by
  induction forest with
  | nil => rfl
  | cons first rest ih =>
    rw [insert]
    split <;> simp [ih]

/-- Join the two lightest trees of an ordered forest until one is left. -/
def ofForest? : List (Nat × Growth) → Option Growth
  | [] => none
  | [tree] => some tree.2
  | first :: second :: rest =>
    ofForest? (insert (first.1 + second.1, join first.2 second.2) rest)
termination_by forest => forest.length
decreasing_by
  rw [length_insert]
  exact Nat.lt_succ_self _

/-- Enter the depths of the symbols of a tree at depth `depth`. -/
def enterDepths (depth : Nat) (lengths : Array Nat) : Growth → Array Nat
  | symbol s => lengths.setIfInBounds s depth
  | join left right => enterDepths (depth + 1) (enterDepths (depth + 1) lengths left) right

end Growth

/-- The lengths of the words for symbols with these weights. A symbol of weight 0 has none. -/
def huffmanLengths (weights : List Nat) : List Nat :=
  let forest := weights.zipIdx.foldl (fun forest (weight, s) =>
    if weight = 0 then forest else Growth.insert (weight, .symbol s) forest) []
  match Growth.ofForest? forest with
  | some tree => (tree.enterDepths 0 (Array.replicate weights.length 0)).toList
  | none => weights.map fun _ => 0

/-- Lengths of at most `limit`. As long as one is greater, the weights are halved, which brings them
    closer together. -/
def lengthsWithin (limit : Nat) : (attempts : Nat) → List Nat → List Nat
  | 0, weights => huffmanLengths weights
  | attempts + 1, weights =>
    let lengths := huffmanLengths weights
    if lengths.all (· ≤ limit) then lengths
    else lengthsWithin limit attempts (weights.map fun weight => (weight + 1) / 2)

/-- Give a weight to the first `missing` symbols that have none. -/
def addWeights : (missing : Nat) → List Nat → List Nat
  | 0, weights => weights
  | _, [] => []
  | missing + 1, 0 :: weights => 1 :: addWeights missing weights
  | missing + 1, weight :: weights => weight :: addWeights (missing + 1) weights

/-- The lengths proposed for symbols with these weights. A code has at least two words, so that no
    place in its tree is empty. -/
def codeLengths (limit : Nat) (weights : List Nat) : List Nat :=
  let used := weights.countP (· ≠ 0)
  lengthsWithin limit 32 (addWeights (2 - used) weights)

end Deflate

end ParallelGzip
