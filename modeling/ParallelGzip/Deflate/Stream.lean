import ParallelGzip.Deflate.Encode

set_option autoImplicit false

/-! # Streams: compressing bytes as they come in

A stream gathers bytes until they make a whole block, which it compresses against the bytes before.
What has not become a block yet is compressed when the stream is asked to. `step` and `rest` take
bytes from the front of what is pending and put their compressed form out, so that nothing is lost
or reordered however the bytes come in. -/

namespace ParallelGzip

namespace Deflate

/-- A stream that is being compressed. -/
structure Stream where
  effort : Nat
  /-- Bytes accepted and not compressed yet. -/
  pending : Array UInt8
  /-- The end of what has been compressed. -/
  window : Bytes
  /-- With fewer pending bytes there is no need to look for a whole block. -/
  due : Nat
  /-- The number of all bytes accepted. -/
  accepted : Nat

namespace Stream

/-! ## Room -/

/-- The bytes a stream accepts before it has to compress. -/
def capacity : Nat := 2 * windowSize

/-- How many bytes can be accepted. The window moves on by half of its length when it is full. -/
def room (s : Stream) : Nat :=
  if s.accepted < windowSize then capacity - s.accepted
  else windowSize - s.accepted % windowSize

theorem room_pos (s : Stream) : 0 < s.room := by
  have := Nat.mod_lt s.accepted (show 0 < windowSize by decide)
  rw [room]
  split
  · next h =>
    simp only [capacity]
    omega
  · omega

/-! ## Blocks -/

/-- So many bytes must follow the place where a token begins, unless no more are coming: the longest
    match and what is needed to look for the next one. -/
def lookAhead : Nat := 262

/-- The longest block that is stored without compressing. -/
def maxStoredBlock : Nat := 65531

/-- With fewer bytes there is no whole block. -/
def minBlock (effort : Nat) : Nat :=
  if effort = 0 then windowSize else maxBlockTokens + lookAhead - 1

/-- A stream without bytes. -/
def new (effort : Nat) : Stream where
  effort := effort
  pending := #[]
  window := []
  due := minBlock effort
  accepted := 0

/-- Take the first `n` pending bytes away. -/
def advance (s : Stream) (n : Nat) : Stream :=
  { s with
    pending := s.pending.extract n s.pending.size
    window := windowOf (s.window ++ (s.pending.extract 0 n).toList)
    due := minBlock s.effort }

theorem size_pending_advance (s : Stream) {n : Nat} (hn : 0 < n) (hs : 0 < s.pending.size) :
    (s.advance n).pending.size < s.pending.size := by
  simp only [advance, Array.size_extract]
  omega

/-- Whether tokens make a whole block can be asked again when as many more have come in as are
    missing, if they are as long as those found. -/
def wait (s : Stream) (found : List Token) : Stream :=
  { s with
    due := s.pending.size
      + (maxBlockTokens - found.length) * tokensLength found / found.length }

/-- Compress the first `n` pending bytes, for which `tokens` stand. -/
def putBlock (s : Stream) (tokens : List Token) (n : Nat) (mark : Bytes) : Bytes × Stream :=
  (encodeBlock tokens (s.pending.extract 0 n).toList mark, s.advance n)

/-- Store the first `n` pending bytes. -/
def putStored (s : Stream) (n : Nat) (mark : Bytes) : Bytes × Stream :=
  (store (s.pending.extract 0 n).toList ++ mark, s.advance n)

/-- Compress a whole block, if there is one. -/
def step (s : Stream) : Option Bytes × Stream :=
  if s.pending.size = 0 ∨ s.pending.size < s.due then (none, s)
  else if s.effort = 0 then
    let (bytes, s) := s.putStored (min s.pending.size maxStoredBlock) []
    (some bytes, s)
  else
    let found := tokens s.effort s.window s.pending (s.pending.size + 1 - lookAhead) maxBlockTokens
    if found.length < maxBlockTokens then (none, s.wait found)
    else
      let (bytes, s) := s.putBlock found (tokensLength found) []
      (some bytes, s)

/-- Compress a block of what is pending although it may not be whole. If nothing is left then, a
    stored block without content follows. -/
def part (s : Stream) : Bytes × Stream :=
  let mark (n : Nat) : Bytes := if s.pending.size ≤ n then syncMark else []
  if s.effort = 0 then
    let n := min s.pending.size maxStoredBlock
    s.putStored n (mark n)
  else
    let found := tokens s.effort s.window s.pending s.pending.size maxBlockTokens
    let n := tokensLength found
    s.putBlock found n (mark n)

/-! ## What is left is less -/

theorem size_pending_step (s : Stream) (bytes : Bytes) (h : s.step.1 = some bytes) :
    s.step.2.pending.size < s.pending.size := by
  rw [step] at h ⊢
  split at h
  · cases h
  · next hdue =>
    rw [if_neg hdue]
    have hs : 0 < s.pending.size := by omega
    split
    · exact s.size_pending_advance (by simp only [maxStoredBlock]; omega) hs
    · next heffort =>
      rw [if_neg heffort] at h
      dsimp only at h ⊢
      split at h
      · cases h
      · next hfound =>
        rw [if_neg hfound]
        refine s.size_pending_advance ?_ hs
        rcases Nat.eq_zero_or_pos (s.pending.size + 1 - lookAhead) with hzero | hstop
        · rw [hzero, tokens_stop_zero] at hfound
          exact absurd (show ([] : List Token).length < maxBlockTokens by decide) hfound
        · exact tokensLength_tokens_pos _ _ hs hstop (by decide)

theorem size_pending_part (s : Stream) (hs : 0 < s.pending.size) :
    s.part.2.pending.size < s.pending.size := by
  rw [part]
  dsimp only
  split
  · exact s.size_pending_advance (by simp only [maxStoredBlock]; omega) hs
  · exact s.size_pending_advance (tokensLength_tokens_pos _ _ hs hs (by decide)) hs

theorem pending_part (s : Stream) (hs : s.pending.size = 0) : s.part.2.pending.size = 0 := by
  rw [part]
  dsimp only
  split <;> simp [putStored, putBlock, advance, hs]

/-! ## Requests -/

/-- Compress all whole blocks. -/
def settle (s : Stream) : Bytes × Stream :=
  match _h : s.step with
  | (some bytes, s') =>
    let (more, s'') := s'.settle
    (bytes ++ more, s'')
  | (none, s') => ([], s')
termination_by s.pending.size
decreasing_by
  have hstep := s.size_pending_step bytes
  rw [_h] at hstep
  exact hstep rfl

/-- Accept bytes, and compress all whole blocks. -/
def give (s : Stream) (data : Bytes) : Bytes × Stream :=
  match s with
  | ⟨effort, pending, window, due, accepted⟩ =>
    settle ⟨effort, pending ++ data, window, due, accepted + data.length⟩

/-- Compress everything that is pending. -/
def finish (s : Stream) : Bytes × Stream :=
  if _hs : s.pending.size = 0 then ([], s)
  else
    match _h : s.part with
    | (bytes, s') =>
      let (more, s'') := s'.finish
      (bytes ++ more, s'')
termination_by s.pending.size
decreasing_by
  have hpart := s.size_pending_part (Nat.pos_of_ne_zero _hs)
  rw [_h] at hpart
  exact hpart

end Stream

end Deflate

end ParallelGzip
