import ParallelGzip.Proofs.Opening
import ParallelGzip.Proofs.Pipeline.Failures
import ParallelGzip.Proofs.Pipeline.Settle

set_option autoImplicit false

/-! # Closed: how a writer is closed and that it stays so

A writer is closed by the call that returns an error, or by the one that asks for it; the owner
reports errors only on the way out (`Run.closed_of_error`). Nothing opens it again. Once the call
that closed it has returned, everybody is gone, so nothing happens any more but that requests are
answered: the writer is at rest, and the functions on it only refuse. -/

namespace ParallelGzip

variable {κ ω : Type}

/-- What a closed writer makes of a call. -/
def Call.refusal : Call → Except Error Nat
  | close => .ok 0
  | submit _ | flush => .error .closed

namespace Pipeline

/-! ## At rest -/

namespace AtRest

variable {s : Pipeline κ ω}

theorem answering (rest : s.AtRest) (result : Except Error Nat) :
    (s.own (.ready result)).AtRest where
  closed := rest.closed
  returned := ⟨result, rfl⟩
  workers := rest.workers
  sequencer := rest.sequencer

/-- The sink does not matter. -/
theorem withSink (rest : s.AtRest) (sink : ω) : { s with sink := sink }.AtRest where
  closed := rest.closed
  returned := rest.returned
  workers := rest.workers
  sequencer := rest.sequencer

end AtRest

section Settling

variable [BlockCompressor κ] [Sink ω] {s : Pipeline κ ω}

/-- Where nobody can take a step there is nothing to settle. -/
theorem Stuck.settle_eq (stuck : s.Stuck) : s.settle = s := by
  rw [settle]
  split
  · next phase =>
    have step := step?_of_writing phase
    rw [stuck] at step
    cases step
  · split
    · rfl
    · next next? =>
      obtain ⟨party, step⟩ := step?_of_next? next?
      rw [stuck] at step
      cases step

/-- A call of a writer at rest is answered at once. -/
theorem AtRest.call (rest : s.AtRest) (c : Call) :
    s.call c = (c.refusal, s.own (.ready c.refusal)) := by
  have begins : s.begin c = s.own (.ready c.refusal) := by
    cases c <;> simp only [begin, rest.closed, if_true, Call.refusal]
  have stuck : (s.own (.ready c.refusal)).Stuck := (rest.answering c.refusal).step?_eq_none
  rw [Pipeline.call, begins, stuck.settle_eq]
  rfl

end Settling

/-! ## How a writer is closed -/

section Runs

variable [BlockCompressor κ] [Sink ω] {h : History κ ω} {start s : Pipeline κ ω}

/-- A closed writer answers a request at once. -/
theorem Run.answers_of_closed (run : Run start h s) (closed : start.owner.closed = true)
    {m : Moment κ ω} (hm : m ∈ h) {r : Request} (request? : m.request? = some r) :
    m.outcome? = some r.answerClosed := by
  obtain ⟨h₁, h₂, rfl⟩ := List.append_of_mem hm
  rcases run.act_of_mem hm with ⟨party, act, -⟩ | ⟨r', act, -, after⟩
  · simp only [Moment.request?, act, reduceCtorEq] at request?
  · simp only [Moment.request?, act, Option.some.injEq] at request?
    rw [request_of_closed (run.split.1.closed_of_closed closed), request?] at after
    simp only [Moment.outcome?, act, after, own]

/-- What a closed writer does from then on is to answer requests, and nothing of it changes but what
    its last call has come to. -/
theorem Run.own_of_settled (run : Run start h s) (settled : start.Settled) (linked : start.Linked) :
    ∃ phase, s = start.own phase := by
  induction run with
  | start => exact ⟨start.owner.phase, rfl⟩
  | step run step =>
    have before := run.of_settled settled linked
    rw [before.1.step?_eq_none before.2.1] at step
    cases step
  | request r run _ ih =>
    have before := run.of_settled settled linked
    obtain ⟨phase, rfl⟩ := ih
    exact ⟨_, request_of_closed before.1.2 r⟩

variable {settings : Settings} {compressors : List κ} {sink : ω}

/-- An open writer is closed, and everybody is gone, behind a call that returns an error and behind
    one that asks for it. -/
theorem Run.atRest_of_call (nonempty : compressors ≠ [])
    (run : Run (Pipeline.new settings compressors sink) h s) (returned : s.Returned)
    (opened : s.owner.closed = false) (r : Request)
    (closes : (∃ error, (s.call r.call).1 = .error error) ∨ r.call = .close) :
    (s.call r.call).2.AtRest := by
  obtain ⟨h', run', alone, ready⟩ := run.exists_run_answer nonempty returned opened r
  have whole := (run.request r returned).append run'
  refine Settled.atRest ⟨⟨_, ready⟩, ?_⟩ whole.linked
  rcases closes with ⟨error, failed⟩ | asked
  · rw [failed] at ready
    exact whole.closed_of_error ready
  · have carries := run'.carries alone (carries_request s r)
    rw [Carries, ready] at carries
    exact carries asked

end Runs

end Pipeline

namespace Writer

/-! ## The functions of a closed writer -/

/-- The writer, with another answer to its last call. -/
def answering (w : Writer κ ω) (result : Except Error Nat) : Writer κ ω :=
  { w with pipeline := w.pipeline.own (.ready result) }

variable [BlockCompressor κ] [Sink ω]

/-- What a closed writer does when it is used: it refuses everything but being closed again, and
    nothing of it changes but the answer. -/
structure Refuses (w : Writer κ ω) : Prop where
  submit : ∀ data, w.submit data = (.error .closed, w.answering (.error .closed))
  flushMember : w.flushMember = (.error .closed, w.answering (.error .closed))
  close : w.close = (.ok 0, w.answering (.ok 0))
  finish : w.finish = (.error .closed, w)
  write : ∀ data, w.write data =
    (.failed (Error.closed.toIo false), w.answering (.error .closed))
  flush : w.flush = (.failed (Error.closed.toIo false), w.answering (.error .closed))

theorem callAndRelease_of_atRest {w : Writer κ ω} (rest : w.pipeline.AtRest) (c : Call) :
    w.callAndRelease c = (c.refusal, w.answering c.refusal) := by
  have closed : w.isClosed = true := rest.closed
  simp only [callAndRelease, call, rest.call, closed, Bool.not_true, Bool.and_false,
    Bool.false_eq_true, if_false, answering]

theorem refuses_of_atRest {w : Writer κ ω} (rest : w.pipeline.AtRest) : w.Refuses := by
  have submit : ∀ data, w.submit data = (.error .closed, w.answering (.error .closed)) :=
    fun data => callAndRelease_of_atRest rest (.submit data)
  have flushMember : w.flushMember = (.error .closed, w.answering (.error .closed)) :=
    callAndRelease_of_atRest rest .flush
  have closed : w.isClosed = true := rest.closed
  refine ⟨submit, flushMember, callAndRelease_of_atRest rest .close, ?finish, ?write, ?flush⟩
  case finish => rw [finish, if_pos closed]
  case write =>
    intro data
    simp only [write, submit, closed, Bool.true_eq_false, and_false, false_and, if_false]
  case flush => simp only [flush, flushMember]

/-! ## The functions of an open writer -/

/-- How an open writer is closed: by a call that fails, whichever it is, or because it was asked for.
    Behind such a call everybody is gone. -/
structure ClosesForGood (w : Writer κ ω) : Prop where
  submit : ∀ data error, (w.submit data).1 = .error error → (w.submit data).2.pipeline.AtRest
  flushMember : ∀ error, w.flushMember.1 = .error error → w.flushMember.2.pipeline.AtRest
  close : w.close.2.pipeline.AtRest
  finish : w.finish.2.pipeline.AtRest
  write : ∀ data, (∀ n, (w.write data).1 ≠ .wrote n) → (w.write data).2.pipeline.AtRest
  flush : w.flush.1 ≠ .done → w.flush.2.pipeline.AtRest

theorem atRest_callAndRelease {w : Writer κ ω} {c : Call}
    (rest : (w.pipeline.call c).2.AtRest) : (w.callAndRelease c).2.pipeline.AtRest := by
  rw [callAndRelease]
  dsimp only
  split
  · exact rest.withSink _
  · exact rest

theorem closesForGood_of_run {settings : Settings} {compressors : List κ} {sink : ω}
    {h : History κ ω} {w : Writer κ ω} (nonempty : compressors ≠ [])
    (run : (Pipeline.new settings compressors sink).Run h w.pipeline)
    (returned : w.pipeline.Returned) (opened : w.isClosed = false) : w.ClosesForGood := by
  have rest := run.atRest_of_call nonempty returned opened
  have submit : ∀ data error, (w.submit data).1 = .error error →
      (w.submit data).2.pipeline.AtRest := fun data error failed =>
    atRest_callAndRelease (rest (.submit data) (.inl ⟨error, failed⟩))
  have flushMember : ∀ error, w.flushMember.1 = .error error →
      w.flushMember.2.pipeline.AtRest := fun error failed =>
    atRest_callAndRelease (rest .flushMember (.inl ⟨error, failed⟩))
  have close : (w.call .close).2.pipeline.AtRest := rest .close (.inr rfl)
  refine ⟨submit, flushMember, atRest_callAndRelease close, ?finish, ?write, ?flush⟩
  case finish =>
    rw [finish, opened, if_neg Bool.false_ne_true]
    split
    · next result =>
      rw [result] at close
      exact close
    · next result =>
      rw [result] at close
      exact close.withSink _
  case write =>
    intro data unwritten
    rw [write] at unwritten ⊢
    split at unwritten
    · exact absurd rfl (unwritten _)
    · next error w' result =>
      have failed := submit data error (by rw [result])
      rw [result] at failed
      split <;> exact failed
  case flush =>
    intro undone
    rw [flush] at undone ⊢
    split at undone
    · exact absurd rfl undone
    · next error w' result =>
      have failed := flushMember error (by rw [result])
      rw [result] at failed
      exact failed

/-! ## The discipline -/

/-- How a writer is closed. At every moment at which a call returns an error the writer is closed.
    From a moment on at which it is closed it stays closed, and whatever is asked of it then is
    answered at once: it refuses everything but being closed again. As soon as the call that closed it
    has returned, everybody is gone; from then on nobody takes a step, so nobody uses the sink.
    The functions on a writer keep to this, too, whatever has become of it: on an open one a failing
    call closes it for good, on a closed one they refuse. -/
theorem closed_discipline {machine : Machine} {sink : ω} {options : WriterOptions}
    {compressor : Nat → κ} {w : Writer κ ω} {h : History κ ω} {s : Pipeline κ ω}
    (opened : openWith machine sink options compressor = .opened w) (run : w.pipeline.Run h s) :
    (∀ m ∈ h, ∀ error, m.outcome? = some (.error error) → m.after.owner.closed = true) ∧
      (∀ (h₁ : History κ ω) (m : Moment κ ω) (h₂ : History κ ω), h = h₁ ++ m :: h₂ →
        m.after.owner.closed = true →
          s.owner.closed = true ∧
          (∀ later ∈ h₂, ∀ r, later.request? = some r → later.outcome? = some r.answerClosed) ∧
          (m.after.Returned → m.after.AtRest ∧ s.AtRest ∧ s.sink = m.after.sink ∧
            ∀ later ∈ h₂, ∃ r, later.act = .request r)) ∧
      (∀ v : Writer κ ω, v.pipeline = s → s.Returned → v.isClosed = false → v.ClosesForGood) ∧
      ∀ v : Writer κ ω, v.pipeline.AtRest → v.Refuses ∧
        ∀ result, (v.answering result).pipeline.AtRest ∧ (v.answering result).sink = v.sink := by
  obtain ⟨n, valid⟩ := exists_validate_of_openWith opened
  obtain ⟨sink', header, start⟩ := pipeline_of_openWith valid opened
  rw [start] at run
  refine ⟨?failing, ?closed, ?functions, fun v rest =>
    ⟨refuses_of_atRest rest, fun result => ⟨rest.answering result, rfl⟩⟩⟩
  case failing =>
    intro m hm error outcome?
    obtain ⟨h₁, h₂, rfl⟩ := List.append_of_mem hm
    exact run.split.2.closed_of_error (Moment.phase_of_outcome? outcome?)
  case closed =>
    rintro h₁ m h₂ rfl closed
    have linked := run.split.2.linked
    refine ⟨run.suffix.closed_of_closed closed, ?_, ?_⟩
    · exact fun later hlater r => run.suffix.answers_of_closed closed hlater
    · intro returned
      have rest := Pipeline.Settled.atRest ⟨returned, closed⟩ linked
      obtain ⟨settled, linked', answers⟩ := run.suffix.of_settled ⟨returned, closed⟩ linked
      obtain ⟨phase, same⟩ := run.suffix.own_of_settled ⟨returned, closed⟩ linked
      refine ⟨rest, settled.atRest linked', by rw [same]; rfl, ?_⟩
      intro later hlater
      obtain ⟨r, act, -⟩ := answers later hlater
      exact ⟨r, act⟩
  case functions =>
    rintro v rfl returned opened
    exact closesForGood_of_run (compressors_ne_nil valid compressor) run returned opened

/-- The compressor of a writer in memory fails on a block, and the flush behind it returns the
    failure. There is only the header in the sink then. -/
theorem exists_failed_flush :
    ∃ (w : Writer ScriptedCompressor (Array UInt8))
      (h : History ScriptedCompressor (Array UInt8))
      (m : Moment ScriptedCompressor (Array UInt8)) (error : Error),
      openWith .ordinary #[] {} (fun _ => ⟨.stored, 0, 0⟩) = .opened w ∧
      w.pipeline.Run (h ++ [m]) m.after ∧ m.outcome? = some (.error error) ∧
      m.after.sink.toList = Frame.header 6 := by
  have valid := WriterOptions.validate_default .ordinary
  have opened := openWith_array (fun _ => ScriptedCompressor.mk .stored 0 0) valid
    Machine.hosts_default
  have run : (Pipeline.new (settings {} 1 valid) [ScriptedCompressor.mk .stored 0 0]
    ((#[] : Array UInt8) ++ Frame.header 6)).Run _ _ := Pipeline.Run.start
  -- the worker fails on the block and leaves, and the sequencer after it
  have submitting := run.request (.submit ScriptedCompressor.failingPrefix) ⟨.ok 0, rfl⟩
  obtain ⟨before, submitted⟩ := submitting.follow (show Pipeline.follow? _ [.owner, .owner,
    .worker 0, .worker 0, .worker 0, .worker 0, .worker 0, .worker 0, .worker 0, .sequencer,
    .sequencer, .sequencer] = some _ from rfl)
  -- the owner finds the failure, closes the writer and reports
  have flushing := submitted.request .flushMember ⟨_, rfl⟩
  obtain ⟨h, joined⟩ := flushing.follow (show Pipeline.follow? _ [.owner, .owner, .owner, .owner,
    .owner, .owner, .owner] = some _ from rfl)
  have reported := joined.step (show Pipeline.step? _ .owner = some _ from rfl)
  exact ⟨_, h, _, _, opened, reported, rfl, rfl⟩

/-- Behind a flush that has failed, the writer refuses to accept nothing at all, and has nothing to
    do when it is closed. -/
theorem closed_discipline_failing_block :
    ∃ (w : Writer ScriptedCompressor (Array UInt8))
      (h₁ : History ScriptedCompressor (Array UInt8))
      (m : Moment ScriptedCompressor (Array UInt8))
      (h₂ : History ScriptedCompressor (Array UInt8))
      (s : Pipeline ScriptedCompressor (Array UInt8)) (error : Error),
      openWith .ordinary #[] {} (fun _ => ⟨.stored, 0, 0⟩) = .opened w ∧
      w.pipeline.Run (h₁ ++ m :: h₂) s ∧ m.outcome? = some (.error error) ∧
      h₂.requests = [.submit [], .close] ∧ m.after.owner.closed = true ∧ s.AtRest ∧
      s.sink = m.after.sink := by
  obtain ⟨w, h₁, m, error, opened, failed, outcome?, -⟩ := exists_failed_flush
  have shut := (closed_discipline opened failed).1 m (by simp) error outcome?
  have returned : m.after.Returned := ⟨_, Moment.phase_of_outcome? outcome?⟩
  have refused := failed.request (.submit []) returned
  have again : (m.after.request (.submit [])).Returned :=
    ⟨_, by rw [Pipeline.request_of_closed shut]; rfl⟩
  have closed := refused.request .close again
  rw [List.append_assoc, List.append_assoc] at closed
  obtain ⟨-, -, rest⟩ := (closed_discipline opened closed).2.1 h₁ m _ rfl shut
  obtain ⟨-, atRest, sink, -⟩ := rest returned
  exact ⟨w, h₁, m, _, _, error, opened, closed, outcome?, rfl, shut, atRest, sink⟩

end Writer

end ParallelGzip
