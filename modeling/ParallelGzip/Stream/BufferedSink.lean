import ParallelGzip.Stream.Sink

set_option autoImplicit false

/-! # Buffered sinks: bytes gathered before they are passed on

A buffer passes its bytes on when something does not fit beside them, when it is flushed, and when
it is let go of. What is at least as long as the whole buffer goes straight to the sink. -/

namespace ParallelGzip

/-- A sink with a buffer in front of it. -/
structure BufferedSink (ω : Type) where
  sink : ω
  capacity : Nat
  buffer : Bytes

namespace BufferedSink

variable {ω : Type}

/-- A sink with an empty buffer in front of it. -/
def new (sink : ω) (capacity : Nat) : BufferedSink ω := ⟨sink, capacity, []⟩

/-- The failure of a sink that takes nothing from the buffer. -/
def nothingDrained : IoError := .text .writeZero "failed to write the buffered data"

variable [Sink ω]

/-- Pass everything on; interruptions are retried. What could not be passed on stays. -/
def drain (b : BufferedSink ω) : FlushResult × BufferedSink ω :=
  if b.buffer = [] then (.done, b)
  else
    match _h : Sink.write b.sink b.buffer with
    | (.wrote 0, sink) => (.failed nothingDrained, { b with sink := sink })
    | (.wrote (n + 1), sink) => drain { b with sink := sink, buffer := b.buffer.drop (n + 1) }
    | (.interrupted _, sink) => drain { b with sink := sink }
    | (.failed cause, sink) => (.failed cause, { b with sink := sink })
    | (.panicked, sink) => (.panicked, { b with sink := sink })
termination_by (b.buffer.length, Sink.patience b.sink)
decreasing_by
  · next hne =>
    have : 0 < b.buffer.length := List.length_pos_iff.2 hne
    exact Prod.Lex.left _ _ (by simp only [List.length_drop]; omega)
  · have hp := Sink.patience_write b.sink b.buffer
    rw [_h] at hp
    exact Prod.Lex.right _ (hp rfl)

/-- Passing on begins with one request. -/
theorem drain_of_ne_nil (b : BufferedSink ω) (hne : b.buffer ≠ []) :
    b.drain =
      match Sink.write b.sink b.buffer with
      | (.wrote 0, sink) => (.failed nothingDrained, { b with sink := sink })
      | (.wrote (n + 1), sink) => drain { b with sink := sink, buffer := b.buffer.drop (n + 1) }
      | (.interrupted _, sink) => drain { b with sink := sink }
      | (.failed cause, sink) => (.failed cause, { b with sink := sink })
      | (.panicked, sink) => (.panicked, { b with sink := sink }) := by
  rw [drain, if_neg hne]
  split <;> next h => simp only [h]

/-- What is taken at once is passed on. -/
theorem drain_of_wrote (b : BufferedSink ω) (hne : b.buffer ≠ []) {sink : ω}
    (wrote : Sink.write b.sink b.buffer = (.wrote b.buffer.length, sink)) :
    b.drain = (.done, ⟨sink, b.capacity, []⟩) := by
  obtain ⟨n, count⟩ : ∃ n, b.buffer.length = n + 1 :=
    Nat.exists_eq_succ_of_ne_zero (mt List.length_eq_zero_iff.1 hne)
  rw [drain_of_ne_nil b hne, wrote, count]
  dsimp only
  rw [← count, List.drop_length, drain, if_pos rfl]

/-- Bytes that still fit into the buffer. -/
def room (b : BufferedSink ω) : Nat := b.capacity - b.buffer.length

/-- Take bytes into the buffer, or pass them by if they would fill it. -/
def take (b : BufferedSink ω) (bytes : Bytes) : WriteResult × BufferedSink ω :=
  if b.buffer = [] ∧ b.capacity ≤ bytes.length then
    let (result, sink) := Sink.write b.sink bytes
    (result, { b with sink := sink })
  else (.wrote bytes.length, { b with buffer := b.buffer ++ bytes })

/-- Offer bytes. -/
def write (b : BufferedSink ω) (bytes : Bytes) : WriteResult × BufferedSink ω :=
  if bytes.length ≤ b.room then b.take bytes
  else
    match b.drain with
    | (.done, b) => b.take bytes
    | (.failed cause, b) => (.failed cause, b)
    | (.panicked, b) => (.panicked, b)

/-- Pass everything on, and tell the sink to do so too. -/
def flush (b : BufferedSink ω) : FlushResult × BufferedSink ω :=
  match b.drain with
  | (.done, b) =>
    let (result, sink) := Sink.flush b.sink
    (result, { b with sink := sink })
  | (result, b) => (result, b)

/-- Pass on what can be passed on, and let go of the sink. -/
def release (b : BufferedSink ω) : BufferedSink ω :=
  { b.drain.2 with sink := Sink.release b.drain.2.sink }

/-- The patience of the sink once the buffer is empty. -/
def patience (b : BufferedSink ω) : Nat :=
  if b.buffer = [] then Sink.patience b.sink else Sink.patience b.drain.2.sink + 1

theorem patience_take (b : BufferedSink ω) (bytes : Bytes) ⦃cause : IoError⦄
    (h : (b.take bytes).1 = .interrupted cause) :
    b.buffer = [] ∧ (b.take bytes).2.patience < Sink.patience b.sink := by
  rw [take] at h ⊢
  split at h
  · next hb =>
    rw [if_pos hb]
    refine ⟨hb.1, ?_⟩
    simp only [patience, hb.1, if_true]
    exact Sink.patience_write b.sink bytes h
  · cases h

theorem patience_write (b : BufferedSink ω) (bytes : Bytes) ⦃cause : IoError⦄
    (h : (b.write bytes).1 = .interrupted cause) :
    (b.write bytes).2.patience < b.patience := by
  rw [write] at h ⊢
  split at h
  · next hr =>
    rw [if_pos hr]
    have ht := patience_take b bytes h
    rw [show b.patience = Sink.patience b.sink by rw [patience, if_pos ht.1]]
    exact ht.2
  · next hr =>
    rw [if_neg hr]
    split at h
    · next b' hd =>
      have ht := patience_take b' bytes h
      refine Nat.lt_of_lt_of_le ht.2 ?_
      rw [patience]
      split
      · next hb =>
        rw [drain, if_pos hb] at hd
        cases hd
        exact Nat.le_refl _
      · rw [hd]
        exact Nat.le_succ _
    · cases h
    · cases h

instance : Sink (BufferedSink ω) where
  write := write
  flush := flush
  release := release
  patience := patience
  patience_write := patience_write

end BufferedSink

end ParallelGzip
