import ParallelGzip.Proofs.Destination
import ParallelGzip.Proofs.Output
import ParallelGzip.Proofs.Pipeline.Closed
import ParallelGzip.Proofs.Pipeline.Submitting
import ParallelGzip.Proofs.WholeMembers

set_option autoImplicit false

/-! # Crossing: errors of the library on their way through streams

An error that has to pass through a stream becomes an I/O error and is unwrapped on the other side.
It comes out as it went in, whoever shares it and however often it goes to and fro, unless it was
wrapped twice before. On the way its kind tells what it is about. One kind is not safe there: a
buffer takes an interruption for a reason to try again, and a writer that has reported one is closed
when it does. So behind the buffer of an output an interruption is lost, and the buffer reports a
closed writer. A writer has an interruption to report only if its sink fails to write with an error
of another kind that carries one. -/

namespace ParallelGzip

namespace Error

/-! ## To and fro -/

/-- Whether an error is not one on its way through a stream that has been taken for an I/O error. -/
def Plain : Error → Prop
  | io (.carrying _ _) => False
  | _ => True

theorem ofIo_toIo {error : Error} (plain : error.Plain) (shared : Bool) :
    ofIo (error.toIo shared) = error := by
  cases error with
  | io cause =>
    cases shared with
    | true => rfl
    | false =>
      cases cause with
      | carrying kind error => exact plain.elim
      | bare | text | system => rfl
  | _ => rfl

theorem kind_toIo (error : Error) (shared : Bool) :
    (error.toIo shared).kind = error.streamKind := by
  cases error with
  | io cause => cases shared <;> rfl
  | _ => rfl

/-- Of the errors that are not I/O errors, those of the options count as bad input, damaged input as
    bad data, truncated input as a premature end, and all others as nothing in particular. -/
theorem streamKind_of_own {error : Error} (own : ∀ cause, error ≠ io cause) :
    (error.streamKind = .invalidInput ↔ error.isConfiguration = true) ∧
      (error.streamKind = .invalidData ↔ ∃ reason, error = decompression reason) ∧
      (error.streamKind = .unexpectedEof ↔ ∃ reason, error = unexpectedEof reason) ∧
      (error.streamKind = .other ↔
        error.isConfiguration = false ∧ error.isCorruptInput = false) := by
  cases error with
  | io cause => exact absurd rfl (own cause)
  | _ => simp [streamKind, isConfiguration, isCorruptInput]

/-- An error that has gone to and fro, each time shared by somebody else or not. -/
def crossed (error : Error) (sharing : List Bool) : Error :=
  sharing.foldl (fun error shared => ofIo (error.toIo shared)) error

theorem crossed_eq {error : Error} (plain : error.Plain) (sharing : List Bool) :
    error.crossed sharing = error := by
  induction sharing with
  | nil => rfl
  | cons shared sharing ih =>
    rw [crossed, List.foldl_cons, ofIo_toIo plain]
    exact ih

end Error

/-! ## Behind a buffer -/

/-- Whether an I/O error, once it is unwrapped, comes through a buffer as it is: it is neither on its
    way already nor an interruption. -/
structure IoError.Conclusive (cause : IoError) : Prop where
  plain : (Error.ofIo cause).Plain
  loud : (Error.ofIo cause).streamKind ≠ .interrupted

namespace Pipeline

variable {error : Error}

theorem SubmissionFailure.plain (failure : SubmissionFailure IoError.Conclusive error) :
    error.Plain := by
  cases failure with
  | closed | panic | nothingTaken => trivial
  | block number cause => cases cause <;> trivial
  | sink conclusive => exact conclusive.plain

theorem SubmissionFailure.loud (failure : SubmissionFailure IoError.Conclusive error) :
    error.streamKind ≠ .interrupted := by
  cases failure with
  | closed | panic | nothingTaken => nofun
  | block number cause => cases cause <;> nofun
  | sink conclusive => exact conclusive.loud

end Pipeline

namespace Pipeline

variable {κ ω : Type} [BlockCompressor κ] [Sink ω] {settings : Settings} {compressors : List κ}
  {sink : ω} {h : History κ ω} {s : Pipeline κ ω} {writing flushing : IoError → Prop}
  {good : ω → Prop} {data : Bytes} {error : Error}

/-- An open writer with a failure in its slot reports it, whatever it is asked for. -/
theorem Run.error_of_left (nonempty : compressors ≠ [])
    (run : Run (Pipeline.new settings compressors sink) h s) (returned : s.Returned)
    (opened : s.owner.closed = false) (left : s.failure = some error) (r : Request) :
    (s.call r.call).1 = .error error := by
  obtain ⟨h', run', alone, ready⟩ := run.exists_run_answer nonempty returned opened r
  have asked : (s.request r).WillReport error := by
    rw [request_of_open opened]
    exact .inr ⟨left, .inr ⟨_, rfl⟩⟩
  rcases run'.willReport alone asked with reported | ⟨-, failed | ⟨c, looks⟩⟩
  · rw [ready, OwnerPhase.ready.injEq] at reported
    exact reported
  · rw [ready] at failed
    exact failed.elim
  · rw [ready] at looks
    cases looks

/-- A call that submits data and fails is one of those that a run can show. -/
theorem Run.cause_of_call (nonempty : compressors ≠ [])
    (known : Sink.FailsOnly writing flushing good) (works : good sink)
    (run : Run (Pipeline.new settings compressors sink) h s) (returned : s.Returned)
    (failed : (s.call (.submit data)).1 = .error error) : SubmissionFailure writing error := by
  cases closed : s.owner.closed with
  | true =>
    rw [(Settled.atRest ⟨returned, closed⟩ run.linked).call] at failed
    cases failed
    exact .closed
  | false =>
    obtain ⟨h', run', alone, ready⟩ :=
      run.exists_run_answer nonempty returned closed (.submit data)
    rw [show (s.call (Request.submit data).call).1 = _ from failed] at ready
    have whole := (run.request (.submit data) returned).append run'
    obtain ⟨h₂, m, h₃, rfl, outcome?⟩ := run'.exists_outcome
      (by simp [request_of_open closed, own]) alone ready
    rw [← List.append_assoc] at whole
    -- nothing has been asked for since
    rw [List.append_cons, History.requests_append, List.append_eq_nil_iff] at alone
    have last : (History.requests (h ++ [⟨s, .request (.submit data), s.request (.submit data)⟩]
        ++ h₂ ++ [m])).getLast? = some (.submit data) := by
      rw [List.append_assoc, History.requests_append, alone.1, List.append_nil,
        History.requests_request, List.getLast?_concat]
    exact whole.cause_of_submission nonempty known works last outcome?

end Pipeline

namespace Output

variable {ω : Type} [Sink ω] {b : BufferedSink (Writer DeflateCompressor (Destination ω))}
  {error : Error}

/-- What the writer behind the buffer fails with is what closing the output fails with, if the
    buffer can tell that it is a failure. -/
theorem close_of_submit_failed (some : b.buffer ≠ [])
    (failed : (b.sink.submit b.buffer).1 = .error error) (plain : error.Plain)
    (loud : error.streamKind ≠ .interrupted) :
    (Output.close (.parallel b)).1 = .failed error := by
  obtain ⟨w, answers⟩ : ∃ w, b.sink.submit b.buffer = (.error error, w) := ⟨_, Prod.ext failed rfl⟩
  have wrote : Sink.write b.sink b.buffer = (.failed (error.toIo false), w) := by
    show Writer.write _ _ = _
    rw [Writer.write, answers]
    exact if_neg fun looks => loud looks.1
  have drained : b.drain = (.failed (error.toIo false), { b with sink := w }) := by
    rw [b.drain_of_ne_nil some, wrote]
  rw [Output.close, drained]
  exact congrArg Attempt.failed (Error.ofIo_toIo plain false)

/-- An interruption makes the buffer try again, and the writer is closed by then. -/
theorem close_of_submit_interrupted (some : b.buffer ≠ []) (opened : b.sink.isClosed = false)
    (failed : (b.sink.submit b.buffer).1 = .error error)
    (rest : (b.sink.submit b.buffer).2.pipeline.AtRest)
    (quiet : error.streamKind = .interrupted) :
    (Output.close (.parallel b)).1 = .failed .closed := by
  obtain ⟨w, answers⟩ : ∃ w, b.sink.submit b.buffer = (.error error, w) := ⟨_, Prod.ext failed rfl⟩
  rw [answers] at rest
  have interrupted : Sink.write b.sink b.buffer = (.interrupted (error.toIo false), w) := by
    show Writer.write _ _ = _
    rw [Writer.write, answers]
    exact if_pos ⟨quiet, opened, rest.closed⟩
  have again : Sink.write w b.buffer = (.failed (Error.closed.toIo false),
      w.answering (.error .closed)) := (Writer.refuses_of_atRest rest).write b.buffer
  have drained : b.drain = (.failed (Error.closed.toIo false),
      { b with sink := w.answering (.error .closed) }) := by
    rw [b.drain_of_ne_nil some, interrupted]
    exact (BufferedSink.drain_of_ne_nil { b with sink := w } some).trans (by rw [again])
  rw [Output.close, drained]
  rfl

/-- What an output with workers is opened with. -/
theorem exists_writer_of_open {machine : Machine} {files opened : Files} {target : Target ω}
    {mode : OpenMode} {options : WriterOptions}
    (opens : Output.open machine files target mode options = .opened (.parallel b) opened) :
    ∃ d, files.openTarget mode target = .ok (d, opened) ∧
      Writer.open machine d options = .opened b.sink := by
  unfold Output.open at opens
  split at opens
  · cases opens
  · split at opens
    · cases opens
    · next d files' found =>
      split at opens
      · cases opens
      · split at opens
        · next writer writes =>
          cases opens
          exact ⟨d, found, writes⟩
        · cases opens
        · cases opens

end Output

namespace Pipeline

variable {κ ω : Type} [BlockCompressor κ] [Sink ω] {s : Pipeline κ ω}

/-- A worker goes on to send a block that it has compressed. -/
theorem step?_of_compressed {i number : Nat} {lane : Lane κ} {c : κ} {data dictionary : Bytes}
    {compressed : CompressedBlock} (lane? : s.lanes[i]? = some lane)
    (worker : lane.worker = .compressing number data dictionary)
    (made : BlockCompressor.compress lane.compressor data dictionary = (.block compressed, c)) :
    s.step? (.worker i) = some { s with lanes := s.lanes.set i { lane with
      compressor := c, worker := .sending (.block number compressed) } } := by
  simp only [step?, workerStep?, lane?, Lane.step?, worker, made, post]

/-- The sequencer goes on to record a failure to write. -/
theorem step?_of_write_failed {rest : Bytes} {thenFlush : Bool} {cause : IoError} {sink : ω}
    (phase : s.sequencer.phase = .writing rest thenFlush) (some : rest ≠ [])
    (failed : Sink.write s.sink rest = (.failed cause, sink)) :
    s.step? .sequencer =
      Option.some ({ s with sink := sink }.sequence (.recording (.ofIo cause))) := by
  simp only [step?, sequencerStep?, phase, some, if_false, writeRest, failed]

end Pipeline

namespace Writer

variable {κ ω : Type} [BlockCompressor κ] [Sink ω] {w v : Writer κ ω}

/-- What can have become of a writer between two calls: it has been used, or it is closed and has
    let go of its sink. -/
def Becomes (w v : Writer κ ω) : Prop :=
  (∃ h, w.pipeline.Run h v.pipeline ∧ v.pipeline.Returned) ∨ v.pipeline.AtRest

theorem becomes_of_run {h : History κ ω} {s : Pipeline κ ω} (run : w.pipeline.Run h s)
    (returned : s.Returned) : w.Becomes { w with pipeline := s } := .inl ⟨h, run, returned⟩

section Started

variable {settings : Settings} {compressors : List κ} {sink : ω} {error : Error}

/-- A failure that has been left in the slot is what the next call that submits data fails with. -/
theorem Becomes.submit_of_left (start : w.pipeline = .new settings compressors sink)
    (nonempty : compressors ≠ []) (becomes : w.Becomes v) (opened : v.isClosed = false)
    (left : v.pipeline.failure = some error) (data : Bytes) :
    (v.submit data).1 = .error error := by
  rcases becomes with ⟨h, run, returned⟩ | rest
  · rw [start] at run
    exact run.error_of_left nonempty returned opened left (.submit data)
  · cases rest.closed.symm.trans opened

/-- A call that fails leaves a writer that was open closed, and everybody gone. -/
theorem Becomes.atRest_of_submit (start : w.pipeline = .new settings compressors sink)
    (nonempty : compressors ≠ []) (becomes : w.Becomes v) (opened : v.isClosed = false)
    {data : Bytes} (failed : (v.submit data).1 = .error error) :
    (v.submit data).2.pipeline.AtRest := by
  rcases becomes with ⟨h, run, returned⟩ | rest
  · rw [start] at run
    exact (closesForGood_of_run nonempty run returned opened).submit data error failed
  · cases rest.closed.symm.trans opened

end Started

end Writer

/-! ## A stream that fails behind the header -/

/-- A stream that takes the header of a member and fails with everything behind it. -/
def ScriptedSink.failingWith (cause : IoError) : ScriptedSink :=
  { failure := some { position := 10, cause := cause } }

/-- A block is what it fails with first, and the failure is left while nobody waits for it. -/
theorem Output.exists_left_of_failingWith (cause : IoError) :
    ∃ (b : BufferedSink (Writer DeflateCompressor (Destination ScriptedSink)))
      (v : Writer DeflateCompressor (Destination ScriptedSink)),
      Output.open .ordinary {} (.stream (ScriptedSink.failingWith cause)) .write { level := 0 } =
          .opened (.parallel b) {} ∧
        b.sink.Becomes v ∧ v.isClosed = false ∧ v.pipeline.failure = some (.ofIo cause) := by
  let broken : ScriptedSink := { ScriptedSink.failingWith cause with
    collected := (#[] : Array UInt8) ++ Frame.header 0, writes := 1 }
  have valid : ({ level := 0 } : WriterOptions).validate .ordinary = .ok 1 :=
    WriterOptions.validate_eq_ok_iff.2 (by decide)
  have header : Sink.writeAll (Destination.stream (ScriptedSink.failingWith cause))
      (Frame.header 0) = (.done, .stream broken) := Sink.writeAll_of_wrote (by decide) rfl
  have opens : Output.open .ordinary {} (.stream (ScriptedSink.failingWith cause)) .write
      { level := 0 } = _ := Output.open_eq_parallel rfl valid rfl header Machine.hosts_default
  let w : Writer DeflateCompressor (Destination ScriptedSink) :=
    ⟨.new (Writer.settings { level := 0 } 1 valid)
      (Pipeline.libraryCompressors (Writer.settings { level := 0 } 1 valid) 1) (.stream broken),
      ({ level := 0 } : WriterOptions).threads⟩
  have run : w.pipeline.Run _ _ := .start
  -- the worker compresses a block
  have submitting := run.request (.submit [7]) ⟨.ok 0, rfl⟩
  obtain ⟨_, submitted⟩ := submitting.follow (show Pipeline.follow? _ [.owner, .owner, .worker 0,
    .worker 0] = some _ from rfl)
  have short : [(7 : UInt8)].length ≤ ({ level := 0 } : WriterOptions).blockSize := by decide
  have made : BlockCompressor.compress (DeflateCompressor.mk 0 _) [7] (windowOf []) = _ :=
    DeflateCompressor.compress_eq short (windowOf [])
  have compressed := submitted.step (Pipeline.step?_of_compressed (i := 0) rfl rfl made)
  -- the sequencer cannot write it, and reports this
  obtain ⟨_, received⟩ := compressed.follow (show Pipeline.follow? _ [.worker 0, .sequencer,
    .sequencer] = some _ from rfl)
  have some : Deflate.encode (Deflate.effort 0) [7] (windowOf (windowOf [])) ≠ [] := by
    rw [show Deflate.effort 0 = 0 from rfl, Deflate.encode, if_pos (.inl rfl)]
    exact List.append_ne_nil_of_right_ne_nil _ (by decide)
  have breaks (bytes : Bytes) : Sink.write (Destination.stream broken) bytes =
      (.failed cause, .stream { broken with writes := 2 }) := rfl
  have failed := received.step (Pipeline.step?_of_write_failed rfl some (breaks _))
  obtain ⟨h, left⟩ := failed.follow (show Pipeline.follow? _ [.sequencer] = Option.some _ from rfl)
  exact ⟨_, _, opens, Writer.becomes_of_run left ⟨_, rfl⟩, rfl, rfl⟩

namespace Error

/-- Errors cross streams unharmed. An error that is turned into an I/O error, whether anybody else
    shares it or not, is unwrapped as itself; its kind tells what it is about; and going to and fro
    any number of times changes nothing. Behind the buffer of an output, a failure that has been left
    is what the buffer is told when it is drained; and what it is told is what closing the output
    fails with, unless it is an interruption: that is lost, and the output reports a closed writer.
    A sink that does not fail with such an interruption, unwrapped, never makes a call that submits
    data report one, whatever the parties do. -/
theorem errors_cross :
    (∀ error : Error, error.Plain → ∀ shared, ofIo (error.toIo shared) = error) ∧
      (∀ (error : Error) (shared : Bool),
        (∀ cause, error = io cause → (error.toIo shared).kind = cause.kind) ∧
        ((∀ cause, error ≠ io cause) →
          ((error.toIo shared).kind = .invalidInput ↔ error.isConfiguration = true) ∧
          ((error.toIo shared).kind = .invalidData ↔ ∃ reason, error = decompression reason) ∧
          ((error.toIo shared).kind = .unexpectedEof ↔ ∃ reason, error = unexpectedEof reason) ∧
          ((error.toIo shared).kind = .other ↔
            error.isConfiguration = false ∧ error.isCorruptInput = false))) ∧
      (∀ error : Error, error.Plain → ∀ sharing, error.crossed sharing = error) ∧
      ∀ {ω : Type} [Sink ω] {machine : Machine} {files opened : Files} {target : Target ω}
        {mode : OpenMode} {options : WriterOptions}
        {b : BufferedSink (Writer DeflateCompressor (Destination ω))},
        Output.open machine files target mode options = .opened (.parallel b) opened →
          (∀ v buffer, b.sink.Becomes v → buffer ≠ [] →
            (∀ error, v.isClosed = false → v.pipeline.failure = some error →
              (v.submit buffer).1 = .error error) ∧
            ∀ error, (v.submit buffer).1 = .error error →
              (error.Plain → error.streamKind ≠ .interrupted →
                (Output.close (.parallel { b with sink := v, buffer := buffer })).1 =
                  .failed error) ∧
              (error.streamKind = .interrupted → v.isClosed = false →
                (Output.close (.parallel { b with sink := v, buffer := buffer })).1 =
                  .failed .closed)) ∧
          ∀ {good : ω → Prop}, Sink.FailsOnly IoError.Conclusive (fun _ => True) good →
            (∀ sink, target = .stream sink → good sink) →
              (∀ (h₁ : History DeflateCompressor (Destination ω)) m h₂ s data error,
                b.sink.pipeline.Run (h₁ ++ m :: h₂) s →
                (History.requests (h₁ ++ [m])).getLast? = some (.submit data) →
                m.outcome? = some (.error error) →
                  error.Plain ∧ error.streamKind ≠ .interrupted) ∧
              ∀ v buffer error, b.sink.Becomes v → (v.submit buffer).1 = .error error →
                error.Plain ∧ error.streamKind ≠ .interrupted := by
  refine ⟨fun error plain => ofIo_toIo plain, ?kinds, fun error plain => crossed_eq plain,
    ?buffered⟩
  case kinds =>
    intro error shared
    rw [kind_toIo]
    refine ⟨?_, streamKind_of_own⟩
    rintro cause rfl
    rfl
  case buffered =>
    intro ω _ machine files opened target mode options b opens
    obtain ⟨d, found, writes⟩ := Output.exists_writer_of_open opens
    obtain ⟨n, valid, d', header, start⟩ := Writer.pipeline_of_open writes
    have nonempty : Pipeline.libraryCompressors (Writer.settings options n valid) n ≠ [] :=
      Pipeline.libraryCompressors_ne_nil (WriterOptions.pos_of_validate valid).2.2
    constructor
    · intro v buffer becomes some
      refine ⟨fun error unclosed left => becomes.submit_of_left start nonempty unclosed left buffer,
        ?_⟩
      intro error failed
      refine ⟨fun plain loud => Output.close_of_submit_failed some failed plain loud, ?_⟩
      intro quiet unclosed
      exact Output.close_of_submit_interrupted some unclosed failed
        (becomes.atRest_of_submit start nonempty unclosed failed) quiet
    · intro good known works
      have known := Destination.failsOnly_reliable known
      have works : Destination.Reliable good d' := by
        have stays := known.writeAll (Destination.reliable_of_openTarget works found)
          (Frame.header options.level)
        rwa [header] at stays
      rw [start]
      refine ⟨?_, ?_⟩
      · intro h₁ m h₂ s data error run last outcome?
        have cause := run.cause_of_submission nonempty known works last outcome?
        exact ⟨cause.plain, cause.loud⟩
      · intro v buffer error becomes failed
        have submits : (v.submit buffer).1 = (v.pipeline.call (.submit buffer)).1 := rfl
        have cause : Pipeline.SubmissionFailure IoError.Conclusive error := by
          rcases becomes with ⟨h, run, returned⟩ | rest
          · rw [start] at run
            exact run.cause_of_call nonempty known works returned failed
          · rw [submits, rest.call] at failed
            cases failed
            exact .closed
        exact ⟨cause.plain, cause.loud⟩

/-- A pipe that breaks behind the header takes no block. The sequencer finds out while nobody waits,
    and closing the output fails with the broken pipe, which stays one on any other way, too. -/
theorem errors_cross_broken_pipe :
    ∃ (b : BufferedSink (Writer DeflateCompressor (Destination ScriptedSink)))
      (v : Writer DeflateCompressor (Destination ScriptedSink)),
      Output.open .ordinary {} (.stream (.failingWith (.bare .brokenPipe))) .write { level := 0 } =
          .opened (.parallel b) {} ∧
        b.sink.Becomes v ∧ v.isClosed = false ∧
        (v.submit [8]).1 = .error (.io (.bare .brokenPipe)) ∧
        (io (.bare .brokenPipe)).Plain ∧ (io (.bare .brokenPipe)).streamKind ≠ .interrupted ∧
        (Output.close (.parallel { b with sink := v, buffer := [8] })).1 =
          .failed (.io (.bare .brokenPipe)) ∧
        ofIo ((io (.bare .brokenPipe)).toIo true) = .io (.bare .brokenPipe) ∧
        (io (.bare .brokenPipe)).crossed [true, false, true] = .io (.bare .brokenPipe) := by
  obtain ⟨b, v, opens, becomes, unclosed, left⟩ :=
    Output.exists_left_of_failingWith (.bare .brokenPipe)
  have planned : (ScriptedSink.failingWith (.bare .brokenPipe)).Planned
      IoError.Conclusive fun _ => True := by
    refine ⟨by decide, ?_, nofun⟩
    intro plan plan?
    cases plan?
    exact ⟨trivial, nofun⟩
  obtain ⟨once, -, often, crosses⟩ := errors_cross
  obtain ⟨drains, never⟩ := crosses opens
  obtain ⟨-, never⟩ := never ScriptedSink.failsOnly (fun sink same => by cases same; exact planned)
  obtain ⟨finds, reported⟩ := drains v [8] becomes (by decide)
  have failed : (v.submit [8]).1 = .error (io (.bare .brokenPipe)) := finds _ unclosed left
  obtain ⟨plain, loud⟩ := never v [8] _ becomes failed
  exact ⟨b, v, opens, becomes, unclosed, failed, plain, loud, (reported _ failed).1 plain loud,
    once _ plain true, often _ plain _⟩

/-- What does not come out as it went in. A stream that fails with an error of no particular kind that
    carries an interruption leaves the interruption in the slot; it is what the writer fails with
    first while the buffer of the output is drained, but closing the output reports a closed writer.
    And an I/O failure can be of the kind of bad options without being about options. -/
theorem interruption_lost :
    (io (.bare .interrupted)).Plain ∧
      (∃ (b : BufferedSink (Writer DeflateCompressor (Destination ScriptedSink)))
        (v : Writer DeflateCompressor (Destination ScriptedSink)),
        Output.open .ordinary {}
            (.stream (.failingWith (.carrying .other (io (.bare .interrupted))))) .write
            { level := 0 } = .opened (.parallel b) {} ∧
          b.sink.Becomes v ∧ v.isClosed = false ∧
          (v.submit [8]).1 = .error (.io (.bare .interrupted)) ∧
          (Output.close (.parallel { b with sink := v, buffer := [8] })).1 ≠
            .failed (.io (.bare .interrupted))) ∧
      ((io (.bare .invalidInput)).toIo false).kind = .invalidInput ∧
      (io (.bare .invalidInput)).isConfiguration = false := by
  refine ⟨trivial, ?_, rfl, rfl⟩
  obtain ⟨b, v, opens, becomes, unclosed, left⟩ :=
    Output.exists_left_of_failingWith (.carrying .other (io (.bare .interrupted)))
  obtain ⟨d, -, writes⟩ := Output.exists_writer_of_open opens
  obtain ⟨n, valid, d', -, start⟩ := Writer.pipeline_of_open writes
  have nonempty : Pipeline.libraryCompressors (Writer.settings { level := 0 } n valid) n ≠ [] :=
    Pipeline.libraryCompressors_ne_nil (WriterOptions.pos_of_validate valid).2.2
  have failed : (v.submit [8]).1 = .error (io (.bare .interrupted)) :=
    becomes.submit_of_left start nonempty unclosed left [8]
  have rest := becomes.atRest_of_submit start nonempty unclosed failed
  have closes := Output.close_of_submit_interrupted (b := { b with sink := v, buffer := [8] })
    (List.cons_ne_nil _ _) unclosed failed rest rfl
  refine ⟨b, v, opens, becomes, unclosed, failed, ?_⟩
  rw [closes]
  nofun

end Error

end ParallelGzip
