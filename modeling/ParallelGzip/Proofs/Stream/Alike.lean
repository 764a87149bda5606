import ParallelGzip.Stream.BufferedSink

set_option autoImplicit false

/-! # Sinks that answer alike

Two sinks of different kinds answer alike if they stand in a relation that every request preserves
and that lets both give the same answer. Whatever is built on requests cannot tell them apart:
writing everything (`Alike.writeAll`), any number of uses one after the other (`Alike.useAll`), and
a buffer in front of them (`BufferedSink.alike_over`). -/

namespace ParallelGzip

namespace Sink

variable {ω ω' : Type} [Sink ω] [Sink ω']

/-! ## Using a sink -/

/-- A use of a sink. -/
inductive Use
  | writeAll (data : Bytes)
  | flush

namespace Use

/-- The data of a use. -/
def data : Use → Bytes
  | writeAll data => data
  | flush => []

/-- Whether a use is to flush. -/
def isFlush : Use → Bool
  | writeAll _ => false
  | flush => true

end Use

/-- Make use of a sink. -/
def use (w : ω) : Use → FlushResult × ω
  | .writeAll data => Sink.writeAll w data
  | .flush => Sink.flush w

/-- Make use of a sink again and again, until something fails. -/
def useAll (w : ω) : List Use → FlushResult × ω
  | [] => (.done, w)
  | u :: uses =>
    match use w u with
    | (.done, w) => useAll w uses
    | stopped => stopped

/-! ## Answering alike -/

/-- Two answers are the same and leave something that stands in relation. -/
inductive Matches {α γ γ' : Type} (R : γ → γ' → Prop) : α × γ → α × γ' → Prop
  | intro (answer : α) {left : γ} {left' : γ'} (related : R left left') :
      Matches R (answer, left) (answer, left')

namespace Matches

variable {α γ γ' : Type} {R : γ → γ' → Prop} {first : α × γ} {second : α × γ'} {answer : α}
  {left : γ} {left' : γ'}

theorem exists_both (same : Matches R first second) :
    ∃ answer left left', first = (answer, left) ∧ second = (answer, left') ∧ R left left' := by
  cases same with
  | intro answer related => exact ⟨answer, _, _, rfl, rfl, related⟩

theorem exists_left (same : Matches R first (answer, left')) :
    ∃ left, first = (answer, left) ∧ R left left' := by
  cases same with
  | intro _ related => exact ⟨_, rfl, related⟩

theorem exists_right (same : Matches R (answer, left) second) :
    ∃ left', second = (answer, left') ∧ R left left' := by
  cases same with
  | intro _ related => exact ⟨_, rfl, related⟩

end Matches

/-- Sinks that stand in this relation answer alike, and stand in it again. -/
structure Alike (R : ω → ω' → Prop) : Prop where
  write : ∀ {w : ω} {w' : ω'} {bytes : Bytes}, R w w' → bytes ≠ [] →
    Matches R (Sink.write w bytes) (Sink.write w' bytes)
  flush : ∀ {w : ω} {w' : ω'}, R w w' → Matches R (Sink.flush w) (Sink.flush w')

namespace Alike

variable {R : ω → ω' → Prop} {w : ω} {w' : ω'}

theorem writeAll (alike : Alike R) (related : R w w') (bytes : Bytes) :
    Matches R (Sink.writeAll w bytes) (Sink.writeAll w' bytes) := by
  fun_induction Sink.writeAll w bytes generalizing w' with
  | case1 w =>
    rw [Sink.writeAll, if_pos rfl]
    exact .intro _ related
  | case2 w bytes some w₁ answers | case5 w bytes some cause w₁ answers
  | case6 w bytes some w₁ answers =>
    have answered := alike.write related some
    rw [answers] at answered
    obtain ⟨v, answers', related⟩ := answered.exists_right
    rw [writeAll_of_ne_nil w' some, answers']
    exact .intro _ related
  | case3 w bytes some n w₁ answers ih | case4 w bytes some cause w₁ answers ih =>
    have answered := alike.write related some
    rw [answers] at answered
    obtain ⟨v, answers', related⟩ := answered.exists_right
    rw [writeAll_of_ne_nil w' some, answers']
    exact ih related

theorem use (alike : Alike R) (related : R w w') (u : Use) :
    Matches R (Sink.use w u) (Sink.use w' u) := by
  cases u with
  | writeAll data => exact alike.writeAll related data
  | flush => exact alike.flush related

theorem useAll (alike : Alike R) (related : R w w') (uses : List Use) :
    Matches R (Sink.useAll w uses) (Sink.useAll w' uses) := by
  induction uses generalizing w w' with
  | nil => exact .intro _ related
  | cons u uses ih =>
    obtain ⟨result, v, v', used, used', related⟩ := (alike.use related u).exists_both
    rw [Sink.useAll, Sink.useAll, used, used']
    cases result with
    | done => exact ih related
    | failed _ | panicked => exact .intro _ related

end Alike

end Sink

/-! ## Behind a buffer -/

namespace BufferedSink

open Sink (Alike Matches)

variable {ω ω' : Type} [Sink ω] [Sink ω']

/-- Buffers of one length with the same content, in front of sinks that stand in relation. -/
inductive Over (R : ω → ω' → Prop) : BufferedSink ω → BufferedSink ω' → Prop
  | intro {sink : ω} {sink' : ω'} (capacity : Nat) (buffer : Bytes) (related : R sink sink') :
      Over R ⟨sink, capacity, buffer⟩ ⟨sink', capacity, buffer⟩

variable {R : ω → ω' → Prop} {b : BufferedSink ω} {b' : BufferedSink ω'}

theorem Over.drain (alike : Alike R) (both : Over R b b') : Matches (Over R) b.drain b'.drain := by
  fun_induction BufferedSink.drain b generalizing b' with
  | case1 b none =>
    obtain ⟨capacity, buffer, related⟩ := both
    rw [BufferedSink.drain, if_pos none]
    exact .intro _ (.intro _ _ related)
  | case2 b some sink answers | case5 b some cause sink answers | case6 b some sink answers =>
    obtain @⟨_, sink', capacity, buffer, related⟩ := both
    have answered := alike.write related some
    rw [answers] at answered
    obtain ⟨v, answers', related⟩ := answered.exists_right
    rw [drain_of_ne_nil ⟨sink', capacity, buffer⟩ some, answers']
    exact .intro _ (.intro _ _ related)
  | case3 b some n sink answers ih | case4 b some cause sink answers ih =>
    obtain @⟨_, sink', capacity, buffer, related⟩ := both
    have answered := alike.write related some
    rw [answers] at answered
    obtain ⟨v, answers', related⟩ := answered.exists_right
    rw [drain_of_ne_nil ⟨sink', capacity, buffer⟩ some, answers']
    exact ih (.intro _ _ related)

theorem Over.take (alike : Alike R) (both : Over R b b') {bytes : Bytes} (some : bytes ≠ []) :
    Matches (Over R) (b.take bytes) (b'.take bytes) := by
  obtain @⟨sink, sink', capacity, buffer, related⟩ := both
  rw [BufferedSink.take, BufferedSink.take]
  split
  · obtain ⟨result, v, v', answer, answer', related⟩ := (alike.write related some).exists_both
    dsimp only
    rw [answer, answer']
    exact .intro _ (.intro _ _ related)
  · exact .intro _ (.intro _ _ related)

theorem Over.write (alike : Alike R) (both : Over R b b') {bytes : Bytes} (some : bytes ≠ []) :
    Matches (Over R) (b.write bytes) (b'.write bytes) := by
  have room : b.room = b'.room := by
    obtain ⟨capacity, buffer, related⟩ := both
    rfl
  rw [BufferedSink.write, BufferedSink.write, room]
  split
  · exact both.take alike some
  · obtain ⟨result, f, f', drained, drained', both⟩ := (both.drain alike).exists_both
    rw [drained, drained']
    cases result with
    | done => exact both.take alike some
    | failed _ | panicked => exact .intro _ both

theorem Over.flush (alike : Alike R) (both : Over R b b') :
    Matches (Over R) (b.flush) (b'.flush) := by
  obtain ⟨result, f, f', drained, drained', both⟩ := (both.drain alike).exists_both
  rw [BufferedSink.flush, BufferedSink.flush, drained, drained']
  cases result with
  | done =>
    obtain @⟨sink, sink', capacity, buffer, related⟩ := both
    obtain ⟨result, v, v', flushed, flushed', related⟩ := (alike.flush related).exists_both
    dsimp only
    rw [flushed, flushed']
    exact .intro _ (.intro _ _ related)
  | failed _ | panicked => exact .intro _ both

/-- A buffer does not tell sinks apart that answer alike. -/
theorem alike_over (alike : Alike R) : Alike (Over R) :=
  ⟨fun both some => both.write alike some, fun both => both.flush alike⟩

end BufferedSink

end ParallelGzip
