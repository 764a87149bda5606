import ParallelGzip.Deflate.Symbol

set_option autoImplicit false

/-! # Blocks: the units of compressed data

Compressed data is read unit by unit: the header of a block, the lengths of a stored block, one
symbol of a coded block. Each unit is a parser of bits, and what it says is an `Event`, which
carries what the rest of the block needs. -/

namespace ParallelGzip

namespace Deflate

/-- What one unit of compressed data says. -/
inductive Event
  /-- A stored block begins; its lengths follow at the next byte. -/
  | storedHeader (final : Bool)
  /-- So many bytes of a stored block follow. -/
  | storedBytes (length : Nat) (final : Bool)
  /-- A block with these codes begins. -/
  | codedHeader (codes : Codes) (final : Bool)
  | literal (value : UInt8) (codes : Codes) (final : Bool)
  /-- Bytes from `distance` back are repeated. -/
  | copy (length : MatchLength) (distance : Nat) (codes : Codes) (final : Bool)
  | endOfBlock (final : Bool)

/-- A number of `n` bits, lowest first. -/
def readBits : (n : Nat) → Parser Bool Defect (Fin (Nat.pow 2 n))
  | 0 => .done ⟨0, by decide⟩
  | n + 1 => .need 1 fun bit => (readBits n).andThen fun rest =>
    .done ⟨bit.toNat + 2 * rest.val, by
      have := rest.isLt
      have : bit.toNat < 2 := by cases bit <;> decide
      have : Nat.pow 2 (n + 1) = Nat.pow 2 n * 2 := rfl
      omega⟩

/-! ## Stored blocks -/

/-- The rest of the two lengths of a stored block after the first bit: the second is the complement
    of the first. -/
def readStoredLengths (final : Bool) (bit : Bool) : Parser Bool Defect Event := do
  let rest ← readBits 15
  let complement ← readBits 16
  let length := bit.toNat + 2 * rest.val
  if length + complement.val = 0xffff then .done (.storedBytes length final)
  else .fail .storedLength

/-! ## Codes of dynamic blocks -/

/-- The order in which the lengths of the codes for code lengths are sent. -/
def lengthLengthOrder : List Nat :=
  [16, 17, 18, 0, 8, 7, 9, 6, 10, 5, 11, 4, 12, 3, 13, 2, 14, 1, 15]

/-- `n` numbers of three bits. -/
def readLengthLengths : (n : Nat) → Parser Bool Defect (List Nat)
  | 0 => .done []
  | n + 1 => do
    let length ← readBits 3
    let lengths ← readLengthLengths n
    return length.val :: lengths

/-- The lengths sent in `lengthLengthOrder`, in the order of the symbols; those not sent are 0. -/
def sortLengthLengths (sent : List Nat) : List Nat :=
  (List.range lengthLengthOrder.length).map fun symbol =>
    ((lengthLengthOrder.zip sent).lookup symbol).getD 0

/-- The last `left` code lengths of a list; `before` holds those read already, last first. A symbol
    below 16 is a length, 16 repeats the length before, 17 and 18 repeat zeros. -/
def readCodeLengths (tree : Tree) (left : Nat) (before : List Nat) :
    Parser Bool Defect (List Nat) :=
  match left with
  | 0 => .done before.reverse
  | left + 1 => (tree.read .literal).andThen fun symbol =>
    if symbol < 16 then readCodeLengths tree left (symbol :: before)
    else if symbol = 16 then
      (readBits 2).andThen fun extra =>
        match before with
        | [] => .fail .repetition
        | last :: _ =>
          if left + 1 < 3 + extra.val then .fail .repetition
          else readCodeLengths tree (left - (2 + extra.val))
            (List.replicate (3 + extra.val) last ++ before)
    else if symbol = 17 then
      (readBits 3).andThen fun extra =>
        if left + 1 < 3 + extra.val then .fail .repetition
        else readCodeLengths tree (left - (2 + extra.val))
          (List.replicate (3 + extra.val) 0 ++ before)
    else
      (readBits 7).andThen fun extra =>
        if left + 1 < 11 + extra.val then .fail .repetition
        else readCodeLengths tree (left - (10 + extra.val))
          (List.replicate (11 + extra.val) 0 ++ before)
termination_by left
decreasing_by
  · exact Nat.lt_succ_self left
  · exact Nat.lt_succ_of_le (Nat.sub_le _ _)
  · exact Nat.lt_succ_of_le (Nat.sub_le _ _)
  · exact Nat.lt_succ_of_le (Nat.sub_le _ _)

/-- The codes of a dynamic block. -/
def readDynamicCodes : Parser Bool Defect Codes := do
  let hlit ← readBits 5
  let hdist ← readBits 5
  let hclen ← readBits 4
  let literals := hlit.val + 257
  let distances := hdist.val + 1
  if 286 < literals ∨ 30 < distances then .fail .tooManySymbols
  else
    let sent ← readLengthLengths (hclen.val + 4)
    match Tree.ofLengthLengths? (sortLengthLengths sent) with
    | none => .fail .lengthCode
    | some tree =>
      let lengths ← readCodeLengths tree (literals + distances) []
      if lengths[endSymbol]? = some 0 then .fail .noEndOfBlock
      else
        match Tree.ofDataLengths? (lengths.take literals) with
        | none => .fail .literalCode
        | some literalTree =>
          match Tree.ofDataLengths? (lengths.drop literals) with
          | none => .fail .distanceCode
          | some distanceTree => .done ⟨literalTree, distanceTree⟩

/-! ## Block headers -/

/-- The rest of the header of a block after its first bit, which says whether the block is the
    last. -/
def readHeader (final : Bool) : Parser Bool Defect Event := do
  let kind ← readBits 2
  match kind with
  | 0 => .done (.storedHeader final)
  | 1 => .done (.codedHeader fixedCodes final)
  | 2 => do
    let codes ← readDynamicCodes
    .done (.codedHeader codes final)
  | 3 => .fail .blockType

/-! ## Symbols of coded blocks -/

/-- The distance of a match whose length is known. -/
def readDistance (length : MatchLength) (codes : Codes) (final : Bool) :
    Parser Bool Defect Event := do
  let symbol ← codes.distances.read .distance
  if h : symbol < 30 then
    let extra ← readBits (distanceExtras.get ⟨symbol, h⟩)
    .done (.copy length (distanceOf ⟨symbol, h⟩ extra.val) codes final)
  else .fail .distance

/-- The rest of a symbol of a coded block after its first bit. -/
def readSymbol (codes : Codes) (final : Bool) (bit : Bool) : Parser Bool Defect Event := do
  let symbol ← (codes.literals.branch bit).decode .literal
  if symbol < endSymbol then .done (.literal (UInt8.ofNat symbol) codes final)
  else if symbol = endSymbol then .done (.endOfBlock final)
  else if h : symbol - (endSymbol + 1) < 29 then
    let extra ← readBits (lengthExtras.get ⟨symbol - (endSymbol + 1), h⟩)
    readDistance (lengthOf ⟨symbol - (endSymbol + 1), h⟩ extra) codes final
  else .fail .literal

end Deflate

end ParallelGzip
