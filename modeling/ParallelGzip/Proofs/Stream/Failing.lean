import ParallelGzip.Proofs.Stream.Unfailing

set_option autoImplicit false

/-! # Sinks whose failures are known

What a sink can fail with is told by two sets, one for requests to write and one for requests to
pass everything on. They are kept apart because a writer asks for the second only at the end of a
member. An interruption is no failure: whoever writes tries again. -/

namespace ParallelGzip

namespace Sink

variable {ω : Type} [Sink ω]

/-- Sinks that fail with `writing` when they are written to and with `flushing` when they pass
    everything on, if they fail; each time they stay such sinks. -/
structure FailsOnly (writing flushing : IoError → Prop) (good : ω → Prop) : Prop where
  stays : ∀ {w : ω} {bytes : Bytes}, good w → bytes ≠ [] → good (Sink.write w bytes).2
  write : ∀ {w : ω} {bytes : Bytes} {cause : IoError}, good w → bytes ≠ [] →
    (Sink.write w bytes).1 = .failed cause → writing cause
  staysFlushed : ∀ {w : ω}, good w → good (Sink.flush w).2
  flush : ∀ {w : ω} {cause : IoError}, good w → (Sink.flush w).1 = .failed cause → flushing cause

variable {writing flushing : IoError → Prop} {good : ω → Prop}

/-- Sinks that never fail fail with nothing. -/
theorem Unfailing.failsOnly (unfailing : Unfailing good) : FailsOnly writing flushing good where
  stays := unfailing.stays
  write works some failed := by
    rcases unfailing.write works some with ⟨n, wrote⟩ | ⟨cause, interrupted⟩
    · rw [wrote] at failed
      cases failed
    · rw [interrupted] at failed
      cases failed
  staysFlushed works := (unfailing.flush works).2
  flush works failed := by
    rw [(unfailing.flush works).1] at failed
    cases failed

/-- Writing everything leaves such a sink. -/
theorem FailsOnly.writeAll (known : FailsOnly writing flushing good) {w : ω} (works : good w)
    (bytes : Bytes) : good (Sink.writeAll w bytes).2 := by
  fun_induction Sink.writeAll w bytes with
  | case1 w => exact works
  | case3 w bytes some n w' answers ih | case4 w bytes some cause w' answers ih =>
    have stays := known.stays works some
    rw [answers] at stays
    exact ih stays
  | case2 w bytes some w' answers | case5 w bytes some cause w' answers
  | case6 w bytes some w' answers =>
    have stays := known.stays works some
    rwa [answers] at stays

end Sink

/-- What is planned for a scripted sink: the failures to come are from two sets, and an
    interruption, if there is one, is not the answer to every request. -/
structure ScriptedSink.Planned (writing flushing : IoError → Prop) (w : ScriptedSink) : Prop where
  interrupt : w.interrupt ≠ 1
  failure : ∀ f, w.failure = some f → writing f.cause
  flushFailure : ∀ f, w.flushFailure = some f → flushing f.cause

namespace ScriptedSink

variable {writing flushing : IoError → Prop}

/-- A scripted sink fails with what is planned. -/
theorem failsOnly : Sink.FailsOnly writing flushing (Planned writing flushing) where
  stays {w bytes} planned _ := by
    have stays : ∀ (collected : Array UInt8) (writes : Nat),
        Planned writing flushing { w with collected := collected, writes := writes } :=
      fun _ _ => ⟨planned.interrupt, planned.failure, planned.flushFailure⟩
    simp only [Sink.write, ScriptedSink.write]
    repeat' split
    all_goals exact stays _ _
  write {w bytes cause} planned _ failed := by
    simp only [Sink.write, ScriptedSink.write, if_neg planned.interrupt] at failed
    split at failed
    · cases failed
    · split at failed
      · next f plan _ =>
        cases failed
        exact planned.failure f plan
      · cases failed
      · split at failed
        · cases failed
        · split at failed <;> cases failed
  staysFlushed {w} planned := by
    have stays : Planned writing flushing { w with flushes := w.flushes + 1 } :=
      ⟨planned.interrupt, planned.failure, planned.flushFailure⟩
    simp only [Sink.flush, ScriptedSink.flush]
    repeat' split
    all_goals exact stays
  flush {w cause} planned failed := by
    simp only [Sink.flush, ScriptedSink.flush] at failed
    repeat' split at failed
    · cases failed
    · next f plan _ =>
      cases failed
      exact planned.flushFailure f plan
    · cases failed

end ScriptedSink

end ParallelGzip
