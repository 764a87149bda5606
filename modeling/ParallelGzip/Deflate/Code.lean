import ParallelGzip.Deflate.Defect
import ParallelGzip.Stream.Parser

set_option autoImplicit false

/-! # Prefix codes: canonical codes as trees

A prefix code is a binary tree with symbols at its leaves. The canonical code of a list of lengths
fills the tree from the left, the shorter codes first and equal lengths in the order of the symbols.
Lengths left over when the tree is full make the code over-subscribed; a place left empty makes it
incomplete. -/

namespace ParallelGzip

namespace Deflate

/-- A prefix code. -/
inductive Tree
  /-- No code begins here. -/
  | empty
  | leaf (symbol : Nat)
  | node (zero one : Tree)

namespace Tree

/-- What follows a bit. -/
def branch : Tree → Bool → Tree
  | node zero _, false => zero
  | node _ one, true => one
  | _, _ => empty

/-- Read bits down to a leaf; an empty place is the defect `unknown`. -/
def decode (unknown : Defect) : Tree → Parser Bool Defect Nat
  | empty => .fail unknown
  | leaf symbol => .done symbol
  | node zero one => .need 1 fun bit =>
    match bit with
    | false => zero.decode unknown
    | true => one.decode unknown

/-- Read one symbol, which takes at least one bit. -/
def read (unknown : Defect) (tree : Tree) : Parser Bool Defect Nat :=
  .need 1 fun bit => (tree.branch bit).decode unknown

/-- Whether no place is empty. -/
def isFull : Tree → Bool
  | empty => false
  | leaf _ => true
  | node zero one => zero.isFull && one.isFull

/-- Place codes, given by length and symbol, below a place at depth `depth`, from the left. The
    codes that found no place are returned. -/
def place : (fuel depth : Nat) → List (Nat × Nat) → Tree × List (Nat × Nat)
  | _, _, [] => (empty, [])
  | 0, _, codes => (empty, codes)
  | fuel + 1, depth, (length, symbol) :: codes =>
    if length ≤ depth then (leaf symbol, codes)
    else
      let (zero, codes) := place fuel (depth + 1) ((length, symbol) :: codes)
      let (one, codes) := place fuel (depth + 1) codes
      (node zero one, codes)

/-- The greatest length of a code. -/
def maxCodeLength : Nat := 15

/-- The symbols with their lengths, shorter ones first; symbols of length 0 have no code. -/
def canonicalOrder (lengths : List Nat) : List (Nat × Nat) :=
  (List.range maxCodeLength).flatMap fun shorter =>
    lengths.zipIdx.filter fun code => code.1 = shorter + 1

/-- The canonical code of the lengths of the symbols 0, 1, 2, …, unless it is over-subscribed. -/
def ofLengths? (lengths : List Nat) : Option Tree :=
  match place (maxCodeLength + 1) 0 (canonicalOrder lengths) with
  | (tree, []) => some tree
  | _ => none

/-- The code for data: complete, unless it has no code of more than one bit. -/
def ofDataLengths? (lengths : List Nat) : Option Tree :=
  match ofLengths? lengths with
  | some tree => if tree.isFull || lengths.all (· ≤ 1) then some tree else none
  | none => none

/-- The code for code lengths: complete. Where no symbol has a code, every bit reads as symbol 0. -/
def ofLengthLengths? (lengths : List Nat) : Option Tree :=
  if lengths.all (· = 0) then some (node (leaf 0) (leaf 0))
  else
    match ofLengths? lengths with
    | some tree => if tree.isFull then some tree else none
    | none => none

end Tree

end Deflate

end ParallelGzip
