import ParallelGzip.Stream.Source
import ParallelGzip.Stream.Sink

set_option autoImplicit false

/-! # Scripted streams: sources and sinks with planned faults

A scripted source serves given bytes in pieces of bounded size and meets its faults at given
places: an interruption at every k-th request, a failure or a panic once it has come to a
position. A scripted sink collects what is written and meets its faults in the same way. An
interruption that would come forever counts as a failure, because trying again is no use. -/

namespace ParallelGzip

/-- The cause of a planned interruption. -/
def interruption : IoError := .bare .interrupted

/-- A failure planned for a position. -/
structure PlannedFailure where
  position : Nat
  cause : IoError
  /-- Whether it happens only the first time. -/
  once : Bool := false

/-! ## Sources -/

/-- A source with planned faults. -/
structure ScriptedSource where
  /-- What is left to serve. -/
  data : Bytes
  /-- The largest piece served at a time; 0 sets no bound. -/
  chunk : Nat := 0
  /-- Every k-th request is interrupted; 0 for none. -/
  interrupt : Nat := 0
  failure : Option PlannedFailure := none
  panicAt : Option Nat := none
  /-- Bytes served so far. -/
  position : Nat := 0
  /-- Requests made so far. -/
  requests : Nat := 0

namespace ScriptedSource

/-- Serve at most `n` bytes. -/
def serve (s : ScriptedSource) (n : Nat) : ReadResult × ScriptedSource :=
  (.delivered (s.data.take n), { s with
    data := s.data.drop n, position := s.position + (s.data.take n).length })

/-- Serve at most `n` bytes unless the planned failure is due. -/
def serveUnlessFailing (s : ScriptedSource) (n : Nat) : ReadResult × ScriptedSource :=
  match s.failure with
  | none => s.serve n
  | some f =>
    if f.position ≤ s.position then
      if f.once then
        (if f.cause.kind = .interrupted then .interrupted f.cause else .failed f.cause,
          { s with failure := none })
      else (.failed f.cause, s)
    else s.serve (min n (f.position - s.position))

/-- Ask for at most `n` bytes. -/
def read (s : ScriptedSource) (n : Nat) : ReadResult × ScriptedSource :=
  let s := { s with requests := s.requests + 1 }
  if 0 < s.interrupt ∧ s.requests % s.interrupt = 0 then
    (if s.interrupt = 1 then .failed interruption else .interrupted interruption, s)
  else
    let n := if s.chunk = 0 then n else min n s.chunk
    match s.panicAt with
    | none => s.serveUnlessFailing n
    | some limit =>
      if limit ≤ s.position then (.panicked, s)
      else s.serveUnlessFailing (min n (limit - s.position))

/-- Two for the planned failure, and one if the next request is interrupted. -/
def patience (s : ScriptedSource) : Nat :=
  (if s.failure.isSome then 2 else 0) +
    if 2 ≤ s.interrupt ∧ (s.requests + 1) % s.interrupt = 0 then 1 else 0

theorem supply_serveUnlessFailing (s : ScriptedSource) (n : Nat) :
    (s.serveUnlessFailing n).2.data.length + (s.serveUnlessFailing n).1.count = s.data.length := by
  have serve_eq : ∀ k, (s.serve k).2.data.length + (s.serve k).1.count = s.data.length := by
    intro k
    simp only [serve, ReadResult.count_delivered, List.length_drop, List.length_take]
    omega
  rw [serveUnlessFailing]
  split
  · exact serve_eq n
  · split
    · split
      · split <;> simp
      · simp
    · exact serve_eq _

theorem supply_read (s : ScriptedSource) (n : Nat) :
    (s.read n).2.data.length + (s.read n).1.count = s.data.length := by
  simp only [read]
  split
  · split <;> simp
  · split
    · exact supply_serveUnlessFailing _ _
    · split
      · simp
      · exact supply_serveUnlessFailing _ _

theorem patience_serveUnlessFailing (s : ScriptedSource) (n : Nat)
    ⦃cause : IoError⦄
    (h : (s.serveUnlessFailing n).1 = .interrupted cause) :
    s.failure.isSome ∧ (s.serveUnlessFailing n).2 = { s with failure := none } := by
  rw [serveUnlessFailing] at h ⊢
  split at h
  · simp [serve] at h
  · next f hf =>
    simp only [hf]
    split at h
    · next hp =>
      rw [if_pos hp]
      split at h
      · next ho => simp [ho]
      · simp at h
    · simp [serve] at h

theorem patience_read (s : ScriptedSource) (n : Nat) ⦃cause : IoError⦄
    (h : (s.read n).1 = .interrupted cause) :
    (s.read n).2.patience < s.patience := by
  have hmod : ∀ k m : Nat, 2 ≤ k → m % k = 0 → (m + 1) % k ≠ 0 := by
    intro k m hk hm
    rw [Nat.add_mod, hm, Nat.zero_add, Nat.mod_mod, Nat.mod_eq_of_lt (by omega)]
    omega
  have key : ∀ (t : ScriptedSource) (k : Nat), t.failure = s.failure → t.interrupt = s.interrupt →
      (t.serveUnlessFailing k).1 = .interrupted cause →
      (t.serveUnlessFailing k).2.patience < s.patience := by
    intro t k hf hi hk
    obtain ⟨hsome, hs⟩ := patience_serveUnlessFailing _ _ hk
    rw [hs]
    rw [hf] at hsome
    simp only [patience, hsome, Option.isSome_none, Bool.false_eq_true, if_false, if_true]
    split <;> split <;> omega
  simp only [read] at h ⊢
  split at h
  · next hi =>
    rw [if_pos hi]
    split at h
    · simp at h
    · next h1 =>
      have hnext := hmod s.interrupt (s.requests + 1) (by omega) hi.2
      simp only [patience]
      have hpos : 2 ≤ s.interrupt ∧ (s.requests + 1) % s.interrupt = 0 := ⟨by omega, hi.2⟩
      have hneg : ¬(2 ≤ s.interrupt ∧ (s.requests + 1 + 1) % s.interrupt = 0) :=
        fun hc => hnext hc.2
      rw [if_neg hneg, if_pos hpos]
      omega
  · next hi =>
    rw [if_neg hi]
    cases hp : s.panicAt with
    | none =>
      simp only [hp] at h ⊢
      exact key _ _ rfl rfl h
    | some limit =>
      simp only [hp] at h ⊢
      by_cases hl : limit ≤ s.position
      · simp [hl] at h
      · rw [if_neg hl] at h ⊢
        exact key _ _ rfl rfl h

instance : Source ScriptedSource where
  read := read
  supply s := s.data.length
  patience := patience
  supply_read s n := Nat.le_of_eq (supply_read s n)
  patience_read s n _ h := Or.inr (patience_read s n h)

end ScriptedSource

/-! ## Sinks -/

/-- A sink with planned faults. -/
structure ScriptedSink where
  /-- What has been written. -/
  collected : Array UInt8 := #[]
  /-- Requests to write so far. -/
  writes : Nat := 0
  /-- Requests to pass everything on so far. -/
  flushes : Nat := 0
  /-- The largest piece taken at a time, if there is a bound. -/
  chunk : Option Nat := none
  /-- Every k-th request to write is interrupted; 0 for none. -/
  interrupt : Nat := 0
  failure : Option PlannedFailure := none
  /-- Nothing is taken from this position on. -/
  zeroAt : Option Nat := none
  panicAt : Option Nat := none
  /-- The number of the first request to pass everything on that fails. -/
  flushFailure : Option PlannedFailure := none

namespace ScriptedSink

/-- The most that may be taken before a position is reached, or nothing if it is reached. -/
def roomBefore (position : Nat) : Option Nat → Nat → Option Nat
  | none, n => some n
  | some limit, n => if limit ≤ position then none else some (min n (limit - position))

/-- Offer bytes. -/
def write (w : ScriptedSink) (bytes : Bytes) : WriteResult × ScriptedSink :=
  let w := { w with writes := w.writes + 1 }
  if 0 < w.interrupt ∧ w.writes % w.interrupt = 0 then
    (if w.interrupt = 1 then .failed interruption else .interrupted interruption, w)
  else
    let position := w.collected.size
    let n :=
      match w.chunk with
      | none => bytes.length
      | some chunk => (bytes.take chunk).length
    match w.failure, roomBefore position (w.failure.map (·.position)) n with
    | some f, none => (.failed f.cause, w)
    | _, none => (.wrote 0, w)
    | _, some n =>
      match roomBefore position w.zeroAt n with
      | none => (.wrote 0, w)
      | some n =>
        match roomBefore position w.panicAt n with
        | none => (.panicked, w)
        | some n => (.wrote n, { w with collected := w.collected ++ bytes.take n })

/-- Pass everything on. -/
def flush (w : ScriptedSink) : FlushResult × ScriptedSink :=
  let w := { w with flushes := w.flushes + 1 }
  match w.flushFailure with
  | none => (.done, w)
  | some f => if f.position ≤ w.flushes then (.failed f.cause, w) else (.done, w)

/-- One if the next request to write is interrupted. -/
def patience (w : ScriptedSink) : Nat :=
  if 2 ≤ w.interrupt ∧ (w.writes + 1) % w.interrupt = 0 then 1 else 0

theorem patience_write (w : ScriptedSink) (bytes : Bytes)
    ⦃cause : IoError⦄
    (h : (w.write bytes).1 = .interrupted cause) : (w.write bytes).2.patience < w.patience := by
  simp only [write] at h ⊢
  split at h
  · next hi =>
    rw [if_pos hi]
    split at h
    · simp at h
    · next h1 =>
      have hmod : (w.writes + 1 + 1) % w.interrupt ≠ 0 := by
        rw [Nat.add_mod, hi.2, Nat.zero_add, Nat.mod_mod, Nat.mod_eq_of_lt (by omega)]
        omega
      simp only [patience]
      rw [if_neg (fun hc => hmod hc.2), if_pos ⟨by omega, hi.2⟩]
      omega
  · exfalso
    split at h
    · simp at h
    · simp at h
    · split at h
      · simp at h
      · split at h <;> simp at h

instance : Sink ScriptedSink where
  write := write
  flush := flush
  release w := w
  patience := patience
  patience_write := patience_write

end ScriptedSink

end ParallelGzip
