import ParallelGzip.Bytes
import ParallelGzip.Deflate.Symbol
import ParallelGzip.Options

set_option autoImplicit false

/-! # Matches: finding repetitions

Text is cut into literals and copies of what stands before. Where a copy may come from is proposed
by a table of positions that agree in a hash of four bytes; a proposal is only used as far as it
has been compared byte by byte, so the table decides how well text is compressed but not what it
means. -/

namespace ParallelGzip

/-- The last `windowSize` bytes. -/
def windowOf (bytes : Bytes) : Bytes := bytes.drop (bytes.length - windowSize)

namespace Deflate

/-- A piece of text. -/
inductive Token
  | literal (value : UInt8)
  /-- Bytes from `distance` back are repeated. -/
  | copy (length distance : Nat)
  deriving DecidableEq, Repr

/-- The number of bytes a token stands for. -/
def Token.length : Token → Nat
  | literal _ => 1
  | copy length _ => length

/-- The number of bytes tokens stand for. -/
def tokensLength : List Token → Nat
  | [] => 0
  | token :: tokens => token.length + tokensLength tokens

theorem tokensLength_append (first second : List Token) :
    tokensLength (first ++ second) = tokensLength first + tokensLength second := by
  induction first with
  | nil => simp [tokensLength]
  | cons token first ih => simp [tokensLength, ih, Nat.add_assoc]

/-- The shortest match that is looked for. A copy of three bytes can be written too, but is rarely
    shorter than three literals. -/
def minMatch : Nat := 4

/-- How many bytes from `i` on agree with those from `j` on, at most `limit` of them; `found` agree
    already. -/
def agreement (text : Array UInt8) (i j : Nat) : (limit found : Nat) → Nat
  | 0, found => found
  | limit + 1, found =>
    if text[j + found]?.isSome ∧ text[i + found]? = text[j + found]? then
      agreement text i j limit (found + 1)
    else found

/-! ## Positions by hash -/

/-- Positions seen so far. Both arrays hold a position plus one, or 0 for none: `heads` the last one
    with a hash, `before` the one before a position. -/
structure Seen where
  heads : Array Nat
  before : Array Nat

namespace Seen

/-- The number of different hashes for a text of `n` bytes. -/
def tableSize (n : Nat) : Nat := min 65536 (4 * n + 1)

/-- Nothing seen of a text of `n` bytes. -/
def empty (n : Nat) : Seen :=
  ⟨Array.replicate (tableSize n) 0, Array.replicate n 0⟩

/-- A hash of the four bytes at a position. -/
def hash (text : Array UInt8) (i size : Nat) : Nat :=
  let byte (k : Nat) : Nat := (text.getD (i + k) 0).toNat
  (byte 0 * 40503 + byte 1 * 257 + byte 2 * 6151 + byte 3 * 31337) % size

/-- Enter a position, unless fewer than four bytes follow. -/
def insert (seen : Seen) (text : Array UInt8) (i : Nat) : Seen :=
  if i + minMatch ≤ text.size then
    match seen with
    | ⟨heads, before⟩ =>
      let h := hash text i heads.size
      let last := heads.getD h 0
      ⟨heads.setIfInBounds h (i + 1), before.setIfInBounds i last⟩
  else seen

/-- Enter the positions from `i` on, `n` of them. -/
def insertFrom (seen : Seen) (text : Array UInt8) (i : Nat) : (n : Nat) → Seen
  | 0 => seen
  | n + 1 => insertFrom (seen.insert text i) text (i + 1) n

end Seen

/-- How many positions with the same hash are compared in search of a match. -/
def candidates (effort : Nat) : Nat := 8 * effort

/-- The best of a chain of at most `left` candidates for a match at `pos`: a length and a distance.
    `candidate` is a position plus one, or 0 at the end of the chain. -/
def bestMatch (text : Array UInt8) (seen : Seen) (pos : Nat) :
    (left candidate : Nat) → (best : Nat × Nat) → Nat × Nat
  | 0, _, best => best
  | _, 0, best => best
  | left + 1, candidate + 1, best =>
    -- the chain goes back in the text, so behind a candidate out of reach all are
    if candidate < pos ∧ pos - candidate ≤ windowSize ∧ best.1 < maxMatch then
      let length := agreement text candidate pos maxMatch 0
      bestMatch text seen pos left (seen.before.getD candidate 0)
        (if best.1 < length then (length, pos - candidate) else best)
    else best

/-- Cut the text from `pos` on into tokens that begin before `stop`, until there are `limit` of
    them; `acc` holds those cut already. -/
def tokensFrom (text : Array UInt8) (effort stop limit : Nat) (seen : Seen) (pos : Nat)
    (acc : Array Token) : Array Token :=
  if h : pos < text.size then
    if stop ≤ pos ∨ limit ≤ acc.size then acc
    else
      let head := seen.heads.getD (Seen.hash text pos seen.heads.size) 0
      match bestMatch text seen pos (candidates effort) head (0, 0) with
      | (length, distance) =>
        if _hl : minMatch ≤ length then
          tokensFrom text effort stop limit (seen.insertFrom text pos length) (pos + length)
            (acc.push (.copy length distance))
        else
          tokensFrom text effort stop limit (seen.insert text pos) (pos + 1)
            (acc.push (.literal text[pos]))
  else acc
termination_by text.size - pos
decreasing_by
  · have : 0 < minMatch := by decide
    omega
  · omega

theorem tokensLength_le_tokensFrom (text : Array UInt8) (effort stop limit : Nat) (seen : Seen)
    (pos : Nat) (acc : Array Token) :
    tokensLength acc.toList
      ≤ tokensLength (tokensFrom text effort stop limit seen pos acc).toList := by
  fun_induction tokensFrom text effort stop limit seen pos acc with
  | case1 => exact Nat.le_refl _
  | case2 _ _ _ _ _ _ _ _ _ _ ih =>
    refine Nat.le_trans ?_ ih
    simp [tokensLength_append]
  | case3 _ _ _ _ _ _ _ _ _ _ ih =>
    refine Nat.le_trans ?_ ih
    simp [tokensLength_append]
  | case4 => exact Nat.le_refl _

/-- Cut `raw` into tokens that may reach back into `dictionary`: those that begin among the first
    `stop` bytes, at most `limit` of them. -/
def tokens (effort : Nat) (dictionary : Bytes) (raw : Array UInt8) (stop limit : Nat) :
    List Token :=
  let text := dictionary.toArray ++ raw
  let start := dictionary.length
  let seen := (Seen.empty text.size).insertFrom text 0 start
  (tokensFrom text effort (start + stop) limit seen start #[]).toList

theorem tokens_stop_zero (effort : Nat) (dictionary : Bytes) (raw : Array UInt8) (limit : Nat) :
    tokens effort dictionary raw 0 limit = [] := by
  rw [tokens, tokensFrom]
  simp

/-- Where there are bytes, there are tokens. -/
theorem tokensLength_tokens_pos (effort : Nat) (dictionary : Bytes) {raw : Array UInt8}
    {stop limit : Nat} (hraw : 0 < raw.size) (hstop : 0 < stop) (hlimit : 0 < limit) :
    0 < tokensLength (tokens effort dictionary raw stop limit) := by
  have hsize : dictionary.length < (dictionary.toArray ++ raw).size := by
    simp only [Array.size_append, List.size_toArray]
    omega
  have hgo :
      ¬(dictionary.length + stop ≤ dictionary.length ∨ limit ≤ (#[] : Array Token).size) := by
    simp only [List.size_toArray, List.length_nil]
    omega
  rw [tokens, tokensFrom, dif_pos hsize, if_neg hgo]
  dsimp only
  split
  · next h =>
    refine Nat.lt_of_lt_of_le ?_ (tokensLength_le_tokensFrom ..)
    have : 0 < minMatch := by decide
    simp only [tokensLength, Token.length, List.push_toArray, List.nil_append]
    omega
  · refine Nat.lt_of_lt_of_le ?_ (tokensLength_le_tokensFrom ..)
    simp [tokensLength, Token.length]

end Deflate

end ParallelGzip
