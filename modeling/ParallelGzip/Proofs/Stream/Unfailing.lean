import ParallelGzip.Proofs.Stream.RecordingSink

set_option autoImplicit false

/-! # Sinks that never fail

A sink never fails if it belongs to a set of sinks (`good` below) in which every request succeeds
and leads to another sink of the set. It may take as few bytes at a time as it likes, and it may
interrupt unless it is steady; everything that is written to it arrives all the same. -/

namespace ParallelGzip

namespace Sink

variable {ω : Type} [Sink ω]

/-- Sinks that never fail. Of what it is offered such a sink takes at least a byte, or it interrupts,
    and it passes on what it has taken; each time it stays such a sink. -/
structure Unfailing (good : ω → Prop) : Prop where
  write : ∀ {w : ω} {bytes : Bytes}, good w → bytes ≠ [] →
    (∃ n, (Sink.write w bytes).1 = .wrote (n + 1)) ∨
      ∃ cause, (Sink.write w bytes).1 = .interrupted cause
  stays : ∀ {w : ω} {bytes : Bytes}, good w → bytes ≠ [] → good (Sink.write w bytes).2
  flush : ∀ {w : ω}, good w → (Sink.flush w).1 = .done ∧ good (Sink.flush w).2

/-- Sinks that do not interrupt. -/
def Steady (good : ω → Prop) : Prop :=
  ∀ (w : ω) (bytes : Bytes) (cause : IoError), good w →
    (Sink.write w bytes).1 ≠ .interrupted cause

namespace Unfailing

variable {good : ω → Prop} {w : ω}

theorem writeAll (unfailing : Unfailing good) (works : good w) (bytes : Bytes) :
    ∃ w', Sink.writeAll w bytes = (.done, w') ∧ good w' := by
  fun_induction Sink.writeAll w bytes with
  | case1 w => exact ⟨w, rfl, works⟩
  | case3 w bytes some n w' answers ih | case4 w bytes some cause w' answers ih =>
    have stays := unfailing.stays works some
    rw [answers] at stays
    exact ih stays
  | case2 w bytes some w' answers | case5 w bytes some cause w' answers
  | case6 w bytes some w' answers =>
    rcases unfailing.write works some with ⟨n, wrote⟩ | ⟨cause, interrupted⟩
    · rw [answers] at wrote
      cases wrote
    · rw [answers] at interrupted
      cases interrupted

theorem push (unfailing : Unfailing good) (steady : Steady good) (works : good w)
    (bytes : Bytes) : ∃ w', Sink.push w bytes = (.done, [], w') ∧ good w' := by
  fun_induction Sink.push w bytes with
  | case1 w => exact ⟨w, rfl, works⟩
  | case3 w bytes some n w' answers ih =>
    have stays := unfailing.stays works some
    rw [answers] at stays
    exact ih stays
  | case4 w bytes some cause w' answers =>
    exact absurd (congrArg Prod.fst answers) (steady w bytes cause works)
  | case2 w bytes some w' answers | case5 w bytes some cause w' answers
  | case6 w bytes some w' answers =>
    rcases unfailing.write works some with ⟨n, wrote⟩ | ⟨cause, interrupted⟩
    · rw [answers] at wrote
      cases wrote
    · rw [answers] at interrupted
      cases interrupted

end Unfailing

/-! ## Instances -/

theorem unfailing_array : Unfailing fun _ : Array UInt8 => True where
  write {_ bytes} _ some :=
    .inl ⟨bytes.length - 1, congrArg WriteResult.wrote
      (Nat.sub_add_cancel (List.length_pos_iff.2 some)).symm⟩
  stays _ _ := trivial
  flush _ := ⟨rfl, trivial⟩

theorem steady_array : Steady fun _ : Array UInt8 => True := nofun

end Sink

/-- No fault but interruptions is planned for a scripted sink, and it takes at least a byte at a
    time. -/
structure ScriptedSink.Calm (w : ScriptedSink) : Prop where
  chunk : w.chunk ≠ some 0
  interrupt : w.interrupt ≠ 1
  failure : w.failure = none
  zeroAt : w.zeroAt = none
  panicAt : w.panicAt = none
  flushFailure : w.flushFailure = none

namespace ScriptedSink

variable {w : ScriptedSink}

/-- How many bytes a calm sink takes. -/
def taken (w : ScriptedSink) (bytes : Bytes) : Nat :=
  match w.chunk with
  | none => bytes.length
  | some chunk => (bytes.take chunk).length

/-- Whether the next request to write is interrupted. -/
def Interrupts (w : ScriptedSink) : Prop := 0 < w.interrupt ∧ (w.writes + 1) % w.interrupt = 0

namespace Calm

theorem taken_pos (calm : w.Calm) {bytes : Bytes} (some : bytes ≠ []) : 0 < w.taken bytes := by
  have pos := List.length_pos_iff.2 some
  have chunk := calm.chunk
  unfold taken
  split
  · exact pos
  · next n found =>
    rw [found] at chunk
    rw [List.length_take]
    have : n ≠ 0 := fun zero => chunk (congrArg _ zero)
    omega

theorem write_of_interrupts (calm : w.Calm) (now : w.Interrupts) (bytes : Bytes) :
    Sink.write w bytes = (.interrupted interruption, { w with writes := w.writes + 1 }) := by
  show ScriptedSink.write w bytes = _
  rw [ScriptedSink.write]
  dsimp only
  unfold Interrupts at now
  rw [if_pos now, if_neg calm.interrupt]

theorem write_of_not_interrupts (calm : w.Calm) (now : ¬w.Interrupts) (bytes : Bytes) :
    Sink.write w bytes = (.wrote (w.taken bytes), { w with
      writes := w.writes + 1, collected := w.collected ++ bytes.take (w.taken bytes) }) := by
  obtain ⟨-, -, failure, zeroAt, panicAt, -⟩ := calm
  show ScriptedSink.write w bytes = _
  rw [ScriptedSink.write]
  dsimp only
  unfold Interrupts at now
  rw [if_neg now]
  simp only [failure, zeroAt, panicAt, roomBefore]
  rfl

end Calm

theorem unfailing : Sink.Unfailing Calm where
  write {w bytes} calm some := by
    by_cases now : w.Interrupts
    · rw [calm.write_of_interrupts now]
      exact .inr ⟨_, rfl⟩
    · have pos := calm.taken_pos some
      rw [calm.write_of_not_interrupts now]
      exact .inl ⟨w.taken bytes - 1, congrArg WriteResult.wrote (Nat.sub_add_cancel pos).symm⟩
  stays {w bytes} calm _ := by
    have stays : ∀ (collected : Array UInt8) (writes : Nat),
        Calm { w with collected := collected, writes := writes } := fun _ _ =>
      ⟨calm.chunk, calm.interrupt, calm.failure, calm.zeroAt, calm.panicAt, calm.flushFailure⟩
    by_cases now : w.Interrupts
    · rw [calm.write_of_interrupts now]
      exact stays _ _
    · rw [calm.write_of_not_interrupts now]
      exact stays _ _
  flush {w} calm := by
    have done : Sink.flush w = (.done, { w with flushes := w.flushes + 1 }) := by
      simp only [Sink.flush, ScriptedSink.flush, calm.flushFailure]
    rw [done]
    exact ⟨rfl, calm.chunk, calm.interrupt, calm.failure, calm.zeroAt, calm.panicAt,
      calm.flushFailure⟩

end ScriptedSink

end ParallelGzip
