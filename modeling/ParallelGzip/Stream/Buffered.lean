import ParallelGzip.Stream.Source

set_option autoImplicit false

/-! # Buffered sources: bytes fetched ahead

A buffer asks its source only when it is empty, once per refill. A request at least as large as the
buffer's capacity goes past an empty buffer straight to the source. `nextByte` is the byte-wise face
for formats whose fields have a known width: it behaves as one request for the whole field does, of
which the first byte is taken. -/

namespace ParallelGzip

/-- A source together with bytes already fetched from it. -/
structure Buffered (σ : Type) where
  source : σ
  capacity : Nat
  buffer : Bytes

namespace Buffered

variable {σ : Type}

/-- Drop buffered bytes. -/
def consume (b : Buffered σ) (n : Nat) : Buffered σ := { b with buffer := b.buffer.drop n }

variable [Source σ]

/-- At most so many bytes are still to come out of the buffer. -/
def supply (b : Buffered σ) : Nat := Source.supply b.source + b.buffer.length

/-- The patience of the source. -/
def patience (b : Buffered σ) : Nat := Source.patience b.source

/-- The buffered bytes, fetched with a request for `size` bytes if there are none. -/
def refill (b : Buffered σ) (size : Nat) : ReadResult × Buffered σ :=
  if b.buffer = [] then
    match Source.read b.source size with
    | (.delivered bytes, s) => (.delivered bytes, { b with source := s, buffer := bytes })
    | (result, s) => (result, { b with source := s })
  else (.delivered b.buffer, b)

/-- The buffered bytes, fetched with a request for a full buffer if there are none. -/
def fillBuffer (b : Buffered σ) : ReadResult × Buffered σ := b.refill b.capacity

/-- Ask for at most `n` bytes. -/
def read (b : Buffered σ) (n : Nat) : ReadResult × Buffered σ :=
  if b.buffer = [] ∧ b.capacity ≤ n then
    let (result, s) := Source.read b.source n
    (result, { b with source := s })
  else
    match b.fillBuffer with
    | (.delivered bytes, b') => (.delivered (bytes.take n), b'.consume (bytes.take n).length)
    | (result, b') => (result, b')

/-! ## What the operations leave -/

theorem supply_consume (b : Buffered σ) (n : Nat) (h : n ≤ b.buffer.length) :
    (b.consume n).supply + n = b.supply := by
  simp only [supply, consume, List.length_drop]
  omega

theorem supply_refill (b : Buffered σ) (size : Nat) : (b.refill size).2.supply ≤ b.supply := by
  have h := Source.supply_read b.source size
  rw [refill]
  split
  · next hb =>
    split
    · next bytes s hr =>
      rw [hr] at h
      simp only [ReadResult.count_delivered] at h
      simp only [supply, hb, List.length_nil]
      omega
    · next result s _ hr =>
      rw [hr] at h
      simp only at h
      simp only [supply]
      omega
  · exact Nat.le_refl _

theorem buffer_refill {b b' : Buffered σ} {size : Nat} {bytes : Bytes}
    (h : b.refill size = (.delivered bytes, b')) : b'.buffer = bytes := by
  rw [refill] at h
  split at h
  · split at h
    · cases h
      rfl
    · next hne _ =>
      cases h
      exact absurd rfl (hne bytes)
  · cases h
    rfl

theorem patience_refill (b : Buffered σ) (size : Nat) ⦃cause : IoError⦄
    (h : (b.refill size).1 = .interrupted cause) :
    (b.refill size).2.supply < b.supply ∨ (b.refill size).2.patience < b.patience := by
  have hp := Source.patience_read b.source size
  rw [refill] at h ⊢
  split at h
  · next hb =>
    rw [if_pos hb]
    split at h
    · cases h
    · next result s hne hr =>
      rw [hr] at hp
      simp only at h
      subst h
      have hpp : Source.supply s < Source.supply b.source ∨
          Source.patience s < Source.patience b.source := by simpa using hp
      simp only [supply, patience]
      omega
  · cases h

/-- A fetched byte leaves the supply when it is consumed. -/
theorem supply_consume_refill {b b' : Buffered σ} {size : Nat} {bytes : Bytes}
    (h : b.refill size = (.delivered bytes, b')) (n : Nat) (hn : n ≤ bytes.length) :
    (b'.consume n).supply + n ≤ b.supply := by
  have hb := buffer_refill h
  have hs := supply_refill b size
  rw [h] at hs
  have := supply_consume b' n (by rw [hb]; exact hn)
  simp only at hs
  omega

/-! ## One byte at a time -/

/-- What asking for one byte came to. -/
inductive ByteResult
  | byte (b : UInt8)
  | ended
  | failed (cause : IoError)
  | panicked

/-- The next byte of a field of which `want` bytes are still missing; interruptions are retried. -/
def nextByte (b : Buffered σ) (want : Nat) : ByteResult × Buffered σ :=
  match _h : b.refill (max want b.capacity) with
  | (.delivered [], b') => (.ended, b')
  | (.delivered (c :: _), b') => (.byte c, b'.consume 1)
  | (.interrupted _, b') => nextByte b' want
  | (.failed cause, b') => (.failed cause, b')
  | (.panicked, b') => (.panicked, b')
termination_by (b.supply, b.patience)
decreasing_by
  have hs := supply_refill b (max want b.capacity)
  have hp := patience_refill b (max want b.capacity)
  rw [_h] at hs hp
  exact Source.retry_lt hs (hp rfl)

theorem supply_nextByte (b : Buffered σ) (want : Nat) :
    (b.nextByte want).2.supply ≤ b.supply ∧
      ∀ c, (b.nextByte want).1 = .byte c → (b.nextByte want).2.supply < b.supply := by
  fun_induction nextByte b want with
  | case1 b b' h => exact ⟨by have := supply_refill b (max want b.capacity); rwa [h] at this,
      fun _ hc => by cases hc⟩
  | case2 b c rest b' h =>
    have := supply_consume_refill h 1 (by simp)
    exact ⟨by simp only; omega, fun _ _ => by simp only; omega⟩
  | case3 b _ b' h ih =>
    have := supply_refill b (max want b.capacity)
    rw [h] at this
    simp only at this
    exact ⟨Nat.le_trans ih.1 this, fun c hc => Nat.lt_of_lt_of_le (ih.2 c hc) this⟩
  | case4 b cause b' h => exact ⟨by have := supply_refill b (max want b.capacity); rwa [h] at this,
      fun _ hc => by cases hc⟩
  | case5 b b' h => exact ⟨by have := supply_refill b (max want b.capacity); rwa [h] at this,
      fun _ hc => by cases hc⟩

/-! ## A buffered source is a source -/

theorem supply_read (b : Buffered σ) (n : Nat) :
    (b.read n).2.supply + (b.read n).1.count ≤ b.supply := by
  rw [read]
  split
  · next hb =>
    have := Source.supply_read b.source n
    simp only [supply]
    omega
  · split
    · next bytes b' hr =>
      have := supply_consume_refill hr (min n bytes.length) (Nat.min_le_right _ _)
      simpa [List.length_take] using this
    · next result b' hne hr =>
      have := supply_refill b b.capacity
      rw [fillBuffer] at hr
      rw [hr] at this
      cases result <;> simp_all

theorem patience_read (b : Buffered σ) (n : Nat) ⦃cause : IoError⦄
    (h : (b.read n).1 = .interrupted cause) :
    (b.read n).2.supply < b.supply ∨ (b.read n).2.patience < b.patience := by
  rw [read] at h ⊢
  split at h
  · next hb =>
    rw [if_pos hb]
    have := Source.patience_read b.source n h
    simp only [supply, patience]
    omega
  · next hb =>
    rw [if_neg hb]
    split at h
    · cases h
    · next result b' hne hr =>
      simp only at h
      subst h
      have := patience_refill b b.capacity
      rw [fillBuffer] at hr
      rw [hr] at this
      exact this rfl

instance : BufferedSource (Buffered σ) where
  read := read
  supply := supply
  patience := patience
  supply_read := supply_read
  patience_read := patience_read
  fillBuffer := fillBuffer
  consume := consume
  supply_fillBuffer b := supply_refill b b.capacity
  patience_fillBuffer b := patience_refill b b.capacity
  supply_consume b n hn := by
    cases hr : b.refill b.capacity with
    | mk result b' =>
      simp only [fillBuffer, hr] at hn ⊢
      have hs := supply_refill b b.capacity
      rw [hr] at hs
      cases result with
      | delivered bytes => exact supply_consume_refill hr n hn
      | interrupted _ | failed _ | panicked =>
        simp only [ReadResult.count, Nat.le_zero_eq] at hn
        subst hn
        simpa [consume, supply] using hs

end Buffered

end ParallelGzip
