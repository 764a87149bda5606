import ParallelGzip.Member.Decoder

set_option autoImplicit false

/-! # Members: decoding a sequence of gzip members

A stream is a sequence of members, each followed by any number of NUL bytes; an empty stream has
none. One request delivers bytes of one member only; empty members are passed over. A header or a
trailer that cannot be accepted uses up its member: the next request goes on behind it. -/

namespace ParallelGzip

/-- A decoder for a sequence of members. -/
structure Members (σ : Type) where
  holding : Holding σ
  /-- Members opened so far. -/
  started : Nat
  /-- Whether the end of the input has been seen where a member could have begun. -/
  finished : Bool

variable {σ : Type} [Source σ]

/-! ## Between members -/

/-- What looking for the next member came to. -/
inductive Search
  | found
  | ended
  | interrupted (cause : IoError)
  | failed (cause : IoError)
  | panicked

/-- Drop NUL bytes up to the next other byte. -/
def skipPadding (b : Buffered σ) : Search × Buffered σ :=
  match _h : b.fillBuffer with
  | (.delivered [], b') => (.ended, b')
  | (.delivered (c :: bytes), b') =>
    let padding := ((c :: bytes).takeWhile (· = 0)).length
    if padding < (c :: bytes).length then (.found, b'.consume padding)
    else skipPadding (b'.consume (c :: bytes).length)
  | (.interrupted cause, b') => (.interrupted cause, b')
  | (.failed cause, b') => (.failed cause, b')
  | (.panicked, b') => (.panicked, b')
termination_by b.supply
decreasing_by
  have := Buffered.supply_consume_refill
    (show b.refill b.capacity = (.delivered (c :: bytes), b') from _h) (c :: bytes).length
    (Nat.le_refl _)
  simp only [List.length_cons] at this ⊢
  omega

/-- Look for the next member: the first one must follow at once, later ones may follow padding. -/
def findMember (b : Buffered σ) (started : Nat) : Search × Buffered σ :=
  if started = 0 then
    match b.fillBuffer with
    | (.delivered [], b) => (.ended, b)
    | (.delivered _, b) => (.found, b)
    | (.interrupted cause, b) => (.interrupted cause, b)
    | (.failed cause, b) => (.failed cause, b)
    | (.panicked, b) => (.panicked, b)
  else skipPadding b

/-- What a search leaves: nothing is interrupted without a step towards the end. -/
theorem supply_skipPadding (b : Buffered σ) :
    (skipPadding b).2.supply ≤ b.supply ∧ (∀ ⦃cause⦄, (skipPadding b).1 = .interrupted cause →
      (skipPadding b).2.supply < b.supply ∨ (skipPadding b).2.patience < b.patience) := by
  fun_induction skipPadding b with
  | case1 b b' h =>
    have := b.supply_refill b.capacity
    rw [show b.refill b.capacity = _ from h] at this
    exact ⟨this, by simp⟩
  | case2 b c bytes b' h padding hlt =>
    have := Buffered.supply_consume_refill (show b.refill b.capacity = _ from h) padding
      (Nat.le_of_lt hlt)
    exact ⟨by simp only; omega, by simp⟩
  | case3 b c bytes b' h padding hlt ih =>
    have := Buffered.supply_consume_refill (show b.refill b.capacity = _ from h)
      (c :: bytes).length (Nat.le_refl _)
    simp only [List.length_cons] at this ih ⊢
    exact ⟨by omega, fun _ _ => .inl (by omega)⟩
  | case4 b _ b' h =>
    have hs := b.supply_refill b.capacity
    have hp := b.patience_refill b.capacity
    rw [show b.refill b.capacity = _ from h] at hs hp
    exact ⟨hs, fun _ _ => hp rfl⟩
  | case5 b cause b' h | case6 b b' h =>
    have := b.supply_refill b.capacity
    rw [show b.refill b.capacity = _ from h] at this
    exact ⟨this, by simp⟩

theorem supply_findMember (b : Buffered σ) (started : Nat) :
    (findMember b started).2.supply ≤ b.supply ∧
      (∀ ⦃cause⦄, (findMember b started).1 = .interrupted cause →
      (findMember b started).2.supply < b.supply ∨
        (findMember b started).2.patience < b.patience) := by
  unfold findMember
  split
  · have hs := b.supply_refill b.capacity
    have hp := b.patience_refill b.capacity
    split
    all_goals
      next h =>
        rw [show b.refill b.capacity = _ from h] at hs hp
        simp_all
  · exact supply_skipPadding b

namespace Members

/-- A decoder at the start of its input. -/
def new (input : Buffered σ) : Members σ := ⟨.between input, 0, false⟩

/-- Open the next member that has something to deliver, and deliver at most `n` bytes of it. -/
def readNext (b : Buffered σ) (started n : Nat) : ReadResult × Members σ :=
  match _h : findMember b started with
  | (.found, b') =>
    match _ho : openMember b' n with
    | .result result holding => (result, ⟨holding, started + 1, false⟩)
    | .ended b'' => readNext b'' (started + 1) n
    | .lostSource => (.panicked, ⟨.lost, started, false⟩)
  | (.ended, b') => (.delivered [], ⟨.between b', started, true⟩)
  | (.interrupted cause, b') => (.interrupted cause, ⟨.between b', started, false⟩)
  | (.failed cause, b') => (.failed cause, ⟨.between b', started, false⟩)
  | (.panicked, b') => (.panicked, ⟨.between b', started, false⟩)
termination_by b.supply
decreasing_by
  have h := (supply_findMember b started).1
  rw [_h] at h
  exact Nat.lt_of_lt_of_le (ended_openMember_lt _ho) h

/-- Ask for at most `n` bytes. -/
def read (m : Members σ) (n : Nat) : ReadResult × Members σ :=
  if n = 0 then (.delivered [], m)
  else
    match m with
    | ⟨.lost, started, finished⟩ => (.delivered [], ⟨.lost, started, finished⟩)
    | ⟨.between b, started, true⟩ => (.delivered [], ⟨.between b, started, true⟩)
    | ⟨.between b, started, false⟩ => readNext b started n
    | ⟨.inside stage b, started, finished⟩ =>
      match readInside stage b n with
      | .result result holding => (result, ⟨holding, started, finished⟩)
      | .ended b => readNext b started n
      | .lostSource => (.panicked, ⟨.lost, started, finished⟩)

/-! ## A decoder is a source -/

/-- Bounds the output still to come. -/
def supply (m : Members σ) : Nat := m.holding.supply

/-- The patience of the input. -/
def patience (m : Members σ) : Nat := m.holding.patience

theorem within_readNext (b : Buffered σ) (started n : Nat) :
    (Outcome.result (readNext b started n).1 (readNext b started n).2.holding).Within
      (byteWeight * b.supply) b.patience := by
  fun_induction readNext b started n with
  | case1 b started b' h result holding ho =>
    have hs := (supply_findMember b started).1
    rw [h] at hs
    have hw := within_openMember b' n b.patience
    rw [ho] at hw
    exact hw.of_le (byteWeight_mul_le hs)
  | case2 b started b' h b'' ho ih =>
    have hs := (supply_findMember b started).1
    rw [h] at hs
    have hlt := ended_openMember_lt ho
    exact ih.mono (byteWeight_mul_lt (Nat.lt_of_lt_of_le hlt hs))
  | case3 b started b' h ho => exact ⟨by simp [Holding.supply], by simp⟩
  | case5 b started _ b' h =>
    have hs := supply_findMember b started
    rw [h] at hs
    refine ⟨by simpa [Holding.supply] using byteWeight_mul_le hs.1, ?_⟩
    intro _ _
    exact (hs.2 rfl).imp byteWeight_mul_lt id
  | case4 b started b' h | case6 b started cause b' h | case7 b started b' h =>
    have hs := (supply_findMember b started).1
    rw [h] at hs
    exact ⟨by simpa [Holding.supply] using byteWeight_mul_le hs, by simp⟩

theorem within_read (m : Members σ) (n : Nat) :
    (Outcome.result (m.read n).1 (m.read n).2.holding).Within m.supply m.patience := by
  unfold read
  split
  · exact ⟨by simp [supply], by simp⟩
  · split
    · exact ⟨by simp [supply, Holding.supply], by simp⟩
    · exact ⟨by simp [supply, Holding.supply], by simp⟩
    · exact within_readNext _ _ _
    · next stage b started finished =>
      have hw := within_readInside stage b n
      split
      · next result holding hr =>
        rw [hr] at hw
        exact hw
      · next b' hr =>
        rw [hr] at hw
        have hn := within_readNext b' started n
        have hle : byteWeight * b.supply ≤ (Holding.inside stage b).supply := by
          cases stage <;> simp [Holding.supply]
        rcases ended_readInside hr with hlt | rfl
        · exact hn.mono (Nat.lt_of_lt_of_le (byteWeight_mul_lt hlt) hle)
        · exact hn.of_le hle
      · exact ⟨by simp [Holding.supply], by simp⟩

instance : Source (Members σ) where
  read := read
  supply := supply
  patience := patience
  supply_read m n := (within_read m n).1
  patience_read m n := (within_read m n).2

end Members

/-! ## Whole streams in memory -/

/-- The payload of a stream held in memory: all members, one after the other. -/
def decompress (data : Bytes) : Except Error Bytes :=
  let input : Buffered NoSource := ⟨.mk, 0, data⟩
  match Source.readToEnd (Members.new input) 65536 #[] with
  | (payload, .ended, _) => .ok payload.toList
  | (_, .failed cause, _) => .error (.ofDecoder cause)
  | (_, .panicked, _) => .error (.internal "a byte string cannot panic")

end ParallelGzip
