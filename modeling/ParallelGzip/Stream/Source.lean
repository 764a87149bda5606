import ParallelGzip.Bytes
import ParallelGzip.Error

set_option autoImplicit false

/-! # Sources: where bytes are read from

A source answers a request for at most `n` bytes with some bytes (none at its end), with an
interruption, with a failure, or by panicking. Its laws bound what may still come: the bytes by
`supply`, the interruptions in a row by `patience`. Loops that read on until the end, or try again
after an interruption, end because of these two numbers. So there is an end to every source: one that
delivers bytes for ever is not among them, and what holds of all sources need not hold of it. -/

namespace ParallelGzip

/-- What a request for bytes came to. -/
inductive ReadResult
  /-- Some bytes; none at the end. -/
  | delivered (bytes : Bytes)
  /-- Nothing happened, and the request may be made again; the cause tells why. -/
  | interrupted (cause : IoError)
  | failed (cause : IoError)
  | panicked

/-- The number of bytes delivered. -/
def ReadResult.count : ReadResult → Nat
  | delivered bytes => bytes.length
  | _ => 0

@[simp] theorem ReadResult.count_delivered (bytes : Bytes) :
    (delivered bytes).count = bytes.length := rfl

@[simp] theorem ReadResult.count_interrupted (cause : IoError) :
    (interrupted cause).count = 0 := rfl

@[simp] theorem ReadResult.count_failed (cause : IoError) : (failed cause).count = 0 := rfl

@[simp] theorem ReadResult.count_panicked : panicked.count = 0 := rfl

/-- Something bytes can be read from, up to an end. -/
class Source (σ : Type) where
  /-- Ask for at most so many bytes. -/
  read : σ → Nat → ReadResult × σ
  /-- At most so many bytes are still to come. -/
  supply : σ → Nat
  /-- At most so many interruptions come in a row. -/
  patience : σ → Nat
  supply_read : ∀ s n, supply (read s n).2 + (read s n).1.count ≤ supply s
  patience_read : ∀ s n ⦃cause⦄, (read s n).1 = .interrupted cause →
    supply (read s n).2 < supply s ∨ patience (read s n).2 < patience s

/-- The order in which retries descend: supply first, then patience. -/
theorem Source.retry_lt {a a' p p' : Nat} (hle : a' ≤ a) (h : a' < a ∨ p' < p) :
    Prod.Lex (· < ·) (· < ·) (a', p') (a, p) := by
  rcases Nat.lt_or_eq_of_le hle with hlt | rfl
  · exact Prod.Lex.left _ _ hlt
  · rcases h with h | h
    · exact absurd h (Nat.lt_irrefl _)
    · exact Prod.Lex.right _ h

/-! ## The source that is at its end -/

/-- A source that has nothing to deliver. -/
inductive NoSource
  | mk

instance : Source NoSource where
  read s _ := (.delivered [], s)
  supply _ := 0
  patience _ := 0
  supply_read _ _ := by simp
  patience_read _ _ _ h := by simp at h

/-! ## Reading on to the end -/

/-- How reading to the end stopped. -/
inductive Ending
  | ended
  | failed (cause : IoError)
  | panicked

/-- Read with requests for `n` bytes until nothing more comes; interruptions are retried. The bytes
    are those delivered before the stop, `acc` being what was there already. -/
def Source.readToEnd {σ : Type} [Source σ] (s : σ) (n : Nat) (acc : Array UInt8) :
    Array UInt8 × Ending × σ :=
  match _h : Source.read s n with
  | (.delivered [], s') => (acc, .ended, s')
  | (.delivered (b :: bytes), s') =>
    Source.readToEnd s' n (acc ++ (b :: bytes))
  | (.interrupted _, s') =>
    Source.readToEnd s' n acc
  | (.failed cause, s') => (acc, .failed cause, s')
  | (.panicked, s') => (acc, .panicked, s')
termination_by (Source.supply s, Source.patience s)
decreasing_by
  · have hs := Source.supply_read s n
    rw [_h] at hs
    simp only [ReadResult.count_delivered, List.length_cons] at hs
    exact Prod.Lex.left _ _ (by omega)
  · have hs := Source.supply_read s n
    have hp := Source.patience_read s n
    rw [_h] at hs hp
    exact Source.retry_lt (by simpa using hs) (hp rfl)

/-- The failure of a request for an exact number of bytes at the end. -/
def endedEarly : IoError := .text .unexpectedEof "failed to fill whole buffer"

/-- Read exactly `n` bytes; interruptions are retried, and an early end is a failure. -/
def Source.readExact {σ : Type} [Source σ] (s : σ) (n : Nat) (acc : Bytes) : ReadResult × σ :=
  if n = 0 then (.delivered acc, s)
  else
    match _h : Source.read s n with
    | (.delivered [], s') => (.failed endedEarly, s')
    | (.delivered (b :: bytes), s') =>
      Source.readExact s' (n - (b :: bytes).length) (acc ++ (b :: bytes))
    | (.interrupted _, s') => Source.readExact s' n acc
    | (.failed cause, s') => (.failed cause, s')
    | (.panicked, s') => (.panicked, s')
termination_by (Source.supply s, Source.patience s)
decreasing_by
  · have hs := Source.supply_read s n
    rw [_h] at hs
    simp only [ReadResult.count_delivered, List.length_cons] at hs
    exact Prod.Lex.left _ _ (by omega)
  · have hs := Source.supply_read s n
    have hp := Source.patience_read s n
    rw [_h] at hs hp
    exact Source.retry_lt (by simpa using hs) (hp rfl)

/-! ## Sources that show what they hold -/

/-- A source with a buffer that can be looked at before it is consumed. -/
class BufferedSource (ρ : Type) extends Source ρ where
  /-- The buffered bytes, fetched first if there are none; none are left at the end. -/
  fillBuffer : ρ → ReadResult × ρ
  /-- Drop so many of the buffered bytes. -/
  consume : ρ → Nat → ρ
  supply_fillBuffer : ∀ r, supply (fillBuffer r).2 ≤ supply r
  patience_fillBuffer : ∀ r ⦃cause⦄, (fillBuffer r).1 = .interrupted cause →
    supply (fillBuffer r).2 < supply r ∨ patience (fillBuffer r).2 < patience r
  supply_consume : ∀ r n, n ≤ (fillBuffer r).1.count →
    supply (consume (fillBuffer r).2 n) + n ≤ supply r

/-- The bytes up to and including the first `delimiter`, if there is one. -/
def splitAfter? (delimiter : UInt8) : Bytes → Option Bytes
  | [] => none
  | b :: bytes =>
    if b = delimiter then some [b] else (splitAfter? delimiter bytes).map (b :: ·)

/-- Read up to and including `delimiter`, or to the end; interruptions are retried. -/
def BufferedSource.readUntil {ρ : Type} [BufferedSource ρ] (r : ρ) (delimiter : UInt8)
    (acc : Array UInt8) : ReadResult × ρ :=
  match _h : BufferedSource.fillBuffer r with
  | (.delivered [], r') => (.delivered acc.toList, BufferedSource.consume r' 0)
  | (.delivered (b :: bytes), r') =>
    match splitAfter? delimiter (b :: bytes) with
    | some line => (.delivered (acc ++ line).toList, BufferedSource.consume r' line.length)
    | none =>
      BufferedSource.readUntil (BufferedSource.consume r' (b :: bytes).length) delimiter
        (acc ++ (b :: bytes))
  | (.interrupted _, r') => BufferedSource.readUntil r' delimiter acc
  | (.failed cause, r') => (.failed cause, r')
  | (.panicked, r') => (.panicked, r')
termination_by (Source.supply r, Source.patience r)
decreasing_by
  · have hs := BufferedSource.supply_consume r (b :: bytes).length (by rw [_h]; simp)
    rw [_h] at hs
    simp only [List.length_cons] at hs ⊢
    exact Prod.Lex.left _ _ (by omega)
  · have hs := BufferedSource.supply_fillBuffer r
    have hp := BufferedSource.patience_fillBuffer r
    rw [_h] at hs hp
    exact Source.retry_lt hs (hp rfl)

/-- What reading a line came to. -/
inductive LineResult
  | line (text : String) (length : Nat)
  | failed (cause : IoError)
  | panicked

/-- The failure of a line that is not text. -/
def invalidText : IoError := .text .invalidData "stream did not contain valid UTF-8"

/-- Read up to and including a line feed, or to the end, as text. -/
def BufferedSource.readLine {ρ : Type} [BufferedSource ρ] (r : ρ) : LineResult × ρ :=
  match BufferedSource.readUntil r 10 #[] with
  | (.delivered bytes, r') =>
    match String.fromUTF8? ⟨bytes.toArray⟩ with
    | some text => (.line text bytes.length, r')
    | none => (.failed invalidText, r')
  | (.interrupted cause, r') => (.failed cause, r')
  | (.failed cause, r') => (.failed cause, r')
  | (.panicked, r') => (.panicked, r')

end ParallelGzip
