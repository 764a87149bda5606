import ParallelGzip.Proofs.Pipeline.Failures

set_option autoImplicit false

/-! # Exits: nobody leaves quietly

As long as the owner has not begun to close, a party that is gone, a queue that has been let go of
and a request to stop all mean that a failure is in the slot. So a call that stops the writer always
has something better to report than that it stopped: `Writer.exits_recorded` says that the errors
kept for a writer that stops for no reason are never needed. -/

namespace ParallelGzip

variable {κ ω : Type}

/-- What a call falls back to when the writer stopped for no reason: nobody has left a failure, or
    there is no sink to give back. -/
def closingFallbacks : List Error :=
  [.thread "compression pipeline stopped unexpectedly",
    .thread "sequencer exited without returning the sink"]

/-- Of all mishaps, only a sink that carries a fallback itself is reported by one. -/
theorem Mishap.sinkFailed_of_fallback {mishap : Mishap}
    (fallback : mishap.failure ∈ closingFallbacks) :
    ∃ index cause, mishap = .sinkFailed index cause := by
  cases mishap with
  | sinkFailed index cause => exact ⟨index, cause, rfl⟩
  | blockFailed number cause =>
    cases cause <;>
      simp [Mishap.failure, CodecError.inBlock, closingFallbacks] at fallback
  | blockPanicked number =>
    exact absurd fallback (by decide : panicOf "compress worker" ∉ closingFallbacks)
  | sinkPanicked index => exact absurd fallback (by decide : panicOf "sequencer" ∉ closingFallbacks)

/-- The only error a closed writer answers with is that it is closed. -/
theorem Request.eq_closed_of_answerClosed {r : Request} {error : Error}
    (answer : r.answerClosed = .error error) : error = .closed := by
  cases r <;> cases answer <;> rfl

namespace Pipeline

/-- What can be seen of parties that have stopped: a worker or the sequencer is gone or has let go
    of a queue, or everybody has been told to stop. -/
inductive Stopping (s : Pipeline κ ω) : Prop
  | worker {i : Nat} {lane : Lane κ} (lane? : s.lanes[i]? = some lane)
      (exited : lane.worker = .exited)
  | input {i : Nat} {lane : Lane κ} (lane? : s.lanes[i]? = some lane)
      (released : lane.worker.holdsInput = false)
  | output {i : Nat} {lane : Lane κ} (lane? : s.lanes[i]? = some lane)
      (released : lane.worker.holdsOutput = false)
  | sequencer (exited : s.sequencer.phase = .exited)
  | turn {i : Nat} {lane : Lane κ} (lane? : s.lanes[i]? = some lane)
      (released : lane.sequencerAttached = false)
  | told (cancelled : s.cancelled = true)

/-- In an open writer nobody stops before everybody has been told to. -/
theorem Stopping.cancelled {s : Pipeline κ ω} (stopping : s.Stopping) (linked : s.Linked)
    (opened : s.owner.closed = false) : s.cancelled = true := by
  by_contra going
  rw [Bool.not_eq_true] at going
  obtain ⟨workers, sequencer⟩ := linked.quiet opened going
  cases stopping with
  | worker lane? exited =>
    refine workers _ _ lane? ?_
    rw [exited]
    trivial
  | input lane? released =>
    refine workers _ _ lane? ?_
    rw [exited_of_holdsInput released]
    trivial
  | output lane? released => exact workers _ _ lane? (leaving_of_holdsOutput released)
  | sequencer exited =>
    refine sequencer ?_
    rw [exited]
    trivial
  | turn lane? released =>
    exact sequencer ((linked.sequencerAttached _ _ lane?).1 released).leaving
  | told cancelled => exact absurd (going.symm.trans cancelled) Bool.false_ne_true

section Slot

variable [BlockCompressor κ] [Sink ω] {h : History κ ω} {s : Pipeline κ ω}

/-- The failure in the slot reports a mishap. -/
theorem Reported.of_failure (reported : s.Reported h) (unsettled : ¬s.Settled)
    (raised : s.Raised) :
    ∃ failure, s.failure = some failure ∧ ∃ mishap ∈ h.mishaps, mishap.failure = failure := by
  obtain ⟨failure, left⟩ := Option.isSome_iff_exists.1 (raised.resolve_right unsettled)
  refine ⟨failure, left, reported.recorded failure (List.mem_of_head? ?_)⟩
  rw [← reported.slot unsettled, left]

omit [BlockCompressor κ] [Sink ω] in
/-- A call that is stopping the writer has not returned. -/
theorem not_settled_of_failed (failed : s.owner.phase.Failed) : ¬s.Settled := by
  rintro ⟨⟨result, ready⟩, -⟩
  rw [ready] at failed
  exact failed

end Slot

section Runs

variable [BlockCompressor κ] [Sink ω] {settings : Settings} {compressors : List κ} {sink : ω}
  {h : History κ ω} {s : Pipeline κ ω}

/-- In an open writer, whoever has stopped has left a failure in the slot or followed somebody who
    has. -/
theorem Run.failure_of_stopping (nonempty : compressors ≠ [])
    (run : Run (Pipeline.new settings compressors sink) h s) (opened : s.owner.closed = false)
    (stopping : s.Stopping) :
    ∃ failure, s.failure = some failure ∧ ∃ mishap ∈ h.mishaps, mishap.failure = failure := by
  refine run.reported.of_failure ?_ ?_
  · rintro ⟨-, closed⟩
    exact absurd (opened.symm.trans closed) Bool.false_ne_true
  · exact (run.alarmed nonempty).cancelled opened (stopping.cancelled run.linked opened)

/-- An owner that closes the writer because of a failure finds it in the slot. -/
theorem Run.failure_of_failed (nonempty : compressors ≠ [])
    (run : Run (Pipeline.new settings compressors sink) h s) (failed : s.owner.phase.Failed) :
    ∃ failure, s.failure = some failure ∧ ∃ mishap ∈ h.mishaps, mishap.failure = failure :=
  run.reported.of_failure (not_settled_of_failed failed) ((run.alarmed nonempty).failed failed)

/-- When everybody is gone and the owner has seen its last entry done, nothing has gone wrong. -/
theorem Run.calm_of_reporting (nonempty : compressors ≠ [])
    (run : Run (Pipeline.new settings compressors sink) h s)
    (phase : s.owner.phase = .reporting false) : h.mishaps = [] := by
  by_contra some
  obtain ⟨mishap, hmishap⟩ := List.exists_mem_of_ne_nil _ some
  obtain ⟨p, hp, concerns⟩ := run.exists_concerns nonempty hmishap
  -- the owner can report; at that moment all entries are done, this one as well
  have done : s.owner.submitted ≤ s.sequenced := by
    refine (run.alarmed nonempty).done ?_
    rw [phase]
    rfl
  obtain ⟨s', step, same⟩ :
      ∃ s', s.step? .owner = Option.some s' ∧ s'.owner.submitted = s.owner.submitted :=
    ⟨{ s with
      failure := none
      owner := { s.owner with phase := .ready (s.closingResult false) } },
      by simp only [step?, ownerStep?, phase], rfl⟩
  have entries := History.entries_of_submitted_eq h same
  have met : mishap ∈ History.mishaps (h ++ [⟨s, .step .owner, s'⟩]) := by
    rw [History.mishaps_concat]
    exact List.mem_append_left _ hmishap
  have hle : s.sequencer.index ≤ p :=
    (run.step step).le_of_concerns nonempty met (entries ▸ concerns)
  rw [run.linked.sequenced] at done
  rw [run.ordered.entries_length] at hp
  omega

/-- When everybody is gone and the owner has seen its last entry done, there is nothing to report,
    and the sink is there to be given back. -/
theorem Run.sink_of_reporting (nonempty : compressors ≠ [])
    (run : Run (Pipeline.new settings compressors sink) h s)
    (phase : s.owner.phase = .reporting false) :
    s.failure = none ∧ s.sequencer.panicked = false ∧ s.closingResult false = .ok 0 := by
  have result : s.closingResult false = .ok 0 := by
    rcases closingResult_eq run.linked (run.alarmed nonempty) run.reported phase with
      ⟨failure, head?, -⟩ | ⟨-, -, fine⟩
    · obtain ⟨mishap, hmishap, -⟩ := run.reported.recorded failure (List.mem_of_head? head?)
      rw [run.calm_of_reporting nonempty phase] at hmishap
      cases hmishap
    · exact fine
  obtain ⟨failure, -, panicked, -⟩ := closingResult_eq_ok_iff.1 result
  exact ⟨failure, panicked, result⟩

/-- A closed writer that answers a request with an error says that it is closed. -/
theorem Run.eq_closed_of_error {start : Pipeline κ ω} (run : Run start h s) {m : Moment κ ω}
    (hm : m ∈ h) {r : Request} (act : m.act = .request r) (closed : m.before.owner.closed = true)
    {error : Error} (outcome? : m.outcome? = some (.error error)) : error = .closed := by
  rcases run.act_of_mem hm with ⟨party, other, -⟩ | ⟨r', act', -, after⟩
  · rw [act] at other
    cases other
  · rw [act] at act'
    cases act'
    rw [request_of_closed closed] at after
    refine Request.eq_closed_of_answerClosed (r := r) ?_
    simpa [Moment.outcome?, act, after, own] using outcome?

/-- An error that a call returns reports a mishap, unless the writer was closed before the call. -/
theorem Run.exists_mishap_of_error (nonempty : compressors ≠ [])
    (run : Run (Pipeline.new settings compressors sink) h s) {m : Moment κ ω} {error : Error}
    (hm : m ∈ h) (outcome? : m.outcome? = some (.error error)) :
    (∃ r, m.request? = some r ∧ m.before.owner.closed = true ∧ error = .closed) ∨
      ∃ mishap ∈ h.mishaps, mishap.failure = error := by
  obtain ⟨h₁, h₂, rfl⟩ := List.append_of_mem hm
  have before := run.split.1
  rcases run.returns_of_outcome? hm outcome? with ⟨move, ready⟩ | ⟨r, act, settled, -⟩
  · refine .inr ?_
    cases move.returns ready with
    | submittedNothing _ result_eq | submitted _ _ _ result_eq | flushed _ _ _ result_eq =>
      cases result_eq
    | reported failed phase result_eq =>
      rcases closingResult_eq before.linked (before.alarmed nonempty) before.reported phase with
        ⟨failure, head?, failing⟩ | ⟨-, -, fine⟩
      · rw [failing] at result_eq
        cases result_eq
        obtain ⟨mishap, hmishap, reports⟩ :=
          before.reported.recorded error (List.mem_of_head? head?)
        refine ⟨mishap, ?_, reports⟩
        rw [History.mishaps_append]
        exact List.mem_append_left _ hmishap
      · rw [fine] at result_eq
        cases result_eq
  · have request? : m.request? = some r := by simp only [Moment.request?, act]
    exact .inl ⟨r, request?, settled.2, run.eq_closed_of_error hm act settled.2 outcome?⟩

end Runs

end Pipeline

namespace Writer

/-- Nobody leaves quietly. While the owner has not begun to close, anybody who is gone, any queue
    that has been let go of and any request to stop come with a failure in the slot, and this
    failure reports a mishap. An owner that closes because of a failure finds it in the slot and
    returns it; one that closes behind the last entry gets its sink back. Every error that a call
    returns is that the writer was closed before, or reports a mishap; it is a fallback only if the
    sink itself failed with it. -/
theorem exits_recorded [BlockCompressor κ] [Sink ω] {machine : Machine} {sink : ω}
    {options : WriterOptions} {compressor : Nat → κ} {w : Writer κ ω} {h : History κ ω}
    {s : Pipeline κ ω}
    (opened : openWith machine sink options compressor = .opened w) (run : w.pipeline.Run h s) :
    (s.owner.closed = false → s.Stopping → ∃ failure, s.failure = some failure ∧
        ∃ mishap ∈ h.mishaps, mishap.failure = failure) ∧
      (s.owner.phase.Failed → ∃ failure, s.failure = some failure ∧
        ∃ mishap ∈ h.mishaps, mishap.failure = failure) ∧
      (s.owner.phase = .reporting true → ∃ failure, s.failure = some failure ∧
        s.closingResult true = .error failure) ∧
      (s.owner.phase = .reporting false → s.failure = none ∧ s.sequencer.panicked = false ∧
        s.closingResult false = .ok 0) ∧
      ∀ m ∈ h, ∀ error, m.outcome? = some (.error error) →
        ((∃ r, m.request? = some r ∧ m.before.owner.closed = true ∧ error = .closed) ∨
          ∃ mishap ∈ h.mishaps, mishap.failure = error) ∧
        (error ∈ closingFallbacks →
          ∃ index cause, .sinkFailed index cause ∈ h.mishaps ∧ Error.ofIo cause = error) := by
  obtain ⟨n, valid⟩ := exists_validate_of_openWith opened
  obtain ⟨sink', header, start⟩ := pipeline_of_openWith valid opened
  rw [start] at run
  have nonempty := compressors_ne_nil valid compressor
  refine ⟨run.failure_of_stopping nonempty, run.failure_of_failed nonempty, ?aborted,
    run.sink_of_reporting nonempty, ?errors⟩
  case aborted =>
    intro phase
    have failed : s.owner.phase.Failed := by
      rw [phase]
      rfl
    obtain ⟨failure, left, -⟩ := run.failure_of_failed nonempty failed
    refine ⟨failure, left, ?_⟩
    simp only [Pipeline.closingResult, left]
  case errors =>
    intro m hm error outcome?
    have cause := run.exists_mishap_of_error nonempty hm outcome?
    refine ⟨cause, ?_⟩
    intro fallback
    rcases cause with ⟨r, -, -, rfl⟩ | ⟨mishap, hmishap, rfl⟩
    · exact absurd fallback (by decide)
    · obtain ⟨index, cause, rfl⟩ := Mishap.sinkFailed_of_fallback fallback
      exact ⟨index, cause, hmishap, rfl⟩

/-- A worker whose compressor fails on short blocks leaves an open writer: by the time it is gone,
    its failure is in the slot. -/
theorem exits_recorded_short_block :
    ∃ (w : Writer ScriptedCompressor (Array UInt8))
      (h : History ScriptedCompressor (Array UInt8))
      (s : Pipeline ScriptedCompressor (Array UInt8)),
      openWith .ordinary #[] {} (fun _ => ⟨.dictated, 0, 0⟩) = .opened w ∧ w.pipeline.Run h s ∧
      s.owner.closed = false ∧ s.Stopping ∧
      ∃ failure, s.failure = some failure ∧ ∃ mishap ∈ h.mishaps, mishap.failure = failure := by
  have valid := WriterOptions.validate_default .ordinary
  have opened := openWith_array (fun _ => ScriptedCompressor.mk .dictated 0 0) valid
    Machine.hosts_default
  have run : (Pipeline.new (settings {} 1 valid) [ScriptedCompressor.mk .dictated 0 0]
    ((#[] : Array UInt8) ++ Frame.header 6)).Run _ _ := Pipeline.Run.start
  have asked := run.request (.submit [7]) ⟨.ok 0, rfl⟩
  have looked := asked.step (show Pipeline.step? _ .owner = some _ from rfl)
  have submitted := looked.step (show Pipeline.step? _ .owner = some _ from rfl)
  have received := submitted.step (show Pipeline.step? _ (.worker 0) = some _ from rfl)
  have begun := received.step (show Pipeline.step? _ (.worker 0) = some _ from rfl)
  have failed := begun.step (show Pipeline.step? _ (.worker 0) = some _ from rfl)
  have recorded := failed.step (show Pipeline.step? _ (.worker 0) = some _ from rfl)
  have told := recorded.step (show Pipeline.step? _ (.worker 0) = some _ from rfl)
  have released := told.step (show Pipeline.step? _ (.worker 0) = some _ from rfl)
  have exited := released.step (show Pipeline.step? _ (.worker 0) = some _ from rfl)
  refine ⟨_, _, _, opened, exited, rfl, ?stopping, (exits_recorded opened exited).1 rfl ?stopping⟩
  exact .worker (i := 0) rfl rfl

end Writer

end ParallelGzip
