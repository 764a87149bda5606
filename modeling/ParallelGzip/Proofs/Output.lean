import ParallelGzip.Proofs.Destination
import ParallelGzip.Proofs.Encoder
import ParallelGzip.Proofs.Requests
import ParallelGzip.Proofs.RoundTrip

set_option autoImplicit false

/-! # Outputs with and without workers agree

The buffer in front of a writer cannot tell the writer from a log that takes everything
(`Writer.alike_obeys`), so it asks for what its uses ask for, and closing the output asks for the
rest. An encoder takes whatever it is given. Both therefore leave members of all the data in the
stream: as many as were asked for, or one (`Output.writers_agree`). -/

namespace ParallelGzip

open Sink (Use Matches)

/-! ## Carrying out what a buffer asks for -/

/-- Requests made by a buffer that is used and then closed have been answered as they are to be, and
    have left members of what the uses ask for. -/
theorem Pipeline.Run.of_requests {ω : Type} [Sink ω] [RecordingSink ω] {settings : Settings}
    {n : Nat} {sink : ω} {h : History DeflateCompressor ω} {s : Pipeline DeflateCompressor ω}
    {base : Bytes} {blockSize : Nat} {uses : List Use} (pos : 0 < n)
    (run : Run (Pipeline.new settings (libraryCompressors settings n) sink) h s)
    (header : RecordingSink.contents sink = base ++ Frame.header settings.level)
    (works : h.SinkWorks) (requests : h.requests = Use.requests blockSize uses)
    (returned : s.Returned) :
    h.outcomes = Request.answers h.requests ∧
      ∃ data, RecordingSink.contents s.sink = base ++ data ∧
        IsStream data (Payloads.ofUses uses) := by
  obtain ⟨program, closes⟩ := Use.closes_requests blockSize uses
  rw [← requests] at program closes
  have answers := (run.answers (libraryCompressors_ne_nil pos) (run.mishaps_eq_nil pos works)
    program).of_returned returned
  obtain ⟨-, -, members⟩ := run.isStream_asked pos header works program closes returned
  rw [requests, Use.whole_asked_requests] at members
  exact ⟨answers.1, members⟩

namespace Writer

variable {ω : Type} [Sink ω] {settings : Settings} {n : Nat} {sink : ω} {good : ω → Prop}
  {w : Writer DeflateCompressor ω} {log : RequestLog}

/-- Since it was started, a writer has carried out what a log has noted, and it is open. -/
structure Obeys (start : Pipeline DeflateCompressor ω) (w : Writer DeflateCompressor ω)
    (log : RequestLog) : Prop where
  ran : ∃ h, start.Run h w.pipeline ∧ h.requests = log.requests
  returned : w.pipeline.Returned
  unclosed : w.pipeline.owner.closed = false
  opened : log.Open

theorem obeys_new (start : Pipeline DeflateCompressor ω) (threads : Threads)
    (returned : start.Returned) (unclosed : start.owner.closed = false) :
    Obeys start ⟨start, threads⟩ ⟨[]⟩ :=
  ⟨⟨[], .start, rfl⟩, returned, unclosed, rfl⟩

/-- Buffers in front of a new writer and of a new log. -/
theorem over_new (start : Pipeline DeflateCompressor ω) (threads : Threads) (blockSize : Nat)
    (returned : start.Returned) (unclosed : start.owner.closed = false) :
    BufferedSink.Over (Obeys start) (.new ⟨start, threads⟩ blockSize) (.new ⟨[]⟩ blockSize) :=
  .intro blockSize [] (obeys_new start threads returned unclosed)

/-- The next request is carried out as well. -/
theorem Obeys.call (pos : 0 < n) (unfailing : Sink.Unfailing good) (works : good sink)
    (obeys :
      Obeys (.new settings (Pipeline.libraryCompressors settings n) sink) w log)
    (r : Request) :
    ∃ h s, w.pipeline.call r.call = (.ok r.call.answer, s) ∧
      Pipeline.Run (.new settings (Pipeline.libraryCompressors settings n) sink) h s ∧
      h.requests = log.requests ++ [r] ∧ s.Returned ∧ s.owner.closed = r.call.closes := by
  obtain ⟨⟨h, run, requests⟩, returned, -, opened⟩ := obeys
  obtain ⟨h', s, answer, later, asked, returned', closed⟩ :=
    run.call pos (fun _ _ run => (run.unfailing unfailing works).2) returned
      (requests ▸ opened) r
  refine ⟨h ++ h', s, answer, run.append later, ?_, returned', closed⟩
  rw [History.requests_append, requests, asked]

/-- A writer on a sink that never fails answers like a log that takes everything. -/
theorem alike_obeys (pos : 0 < n) (unfailing : Sink.Unfailing good) (works : good sink) :
    Sink.Alike (Obeys (.new settings (Pipeline.libraryCompressors settings n) sink)) where
  write {w log data} obeys _ := by
    obtain ⟨h, s, answer, run, requests, returned, unclosed⟩ :=
      obeys.call pos unfailing works (.submit data)
    have wrote : Sink.write w data = (.wrote data.length, { w with pipeline := s }) := by
      show Writer.write w data = _
      rw [Writer.write, submit_of_call answer unclosed]
      rfl
    rw [wrote]
    exact .intro _ ⟨⟨h, run, requests⟩, returned, unclosed, obeys.opened.concat rfl⟩
  flush {w log} obeys := by
    obtain ⟨h, s, answer, run, requests, returned, unclosed⟩ :=
      obeys.call pos unfailing works .flushMember
    have flushed : Sink.flush w = (.done, { w with pipeline := s }) := by
      show Writer.flush w = _
      rw [Writer.flush, flushMember_of_call answer unclosed]
    rw [flushed]
    exact .intro _ ⟨⟨h, run, requests⟩, returned, unclosed, obeys.opened.concat rfl⟩

/-- A buffer in front of a writer that follows one in front of a log, when it is closed, has had the
    requests carried out that the log is used for. -/
theorem exists_close_of_over (pos : 0 < n) (unfailing : Sink.Unfailing good) (works : good sink)
    {b : BufferedSink (Writer DeflateCompressor ω)} {logged : BufferedSink RequestLog}
    {blockSize : Nat} {uses : List Use}
    (both : BufferedSink.Over (Obeys (.new settings (Pipeline.libraryCompressors settings n) sink))
      b logged)
    (used : Sink.useAll (BufferedSink.new ⟨[]⟩ blockSize) uses = (.done, logged)) :
    ∃ b' closed h s, b.drain = (.done, b') ∧ b'.sink.close = (.ok 0, closed) ∧
      closed.sink = Sink.release s.sink ∧
      Pipeline.Run (.new settings (Pipeline.libraryCompressors settings n) sink) h s ∧
      h.requests = Use.requests blockSize uses ∧ s.Returned := by
  obtain ⟨logged', drained, used', passed, requests, -, -⟩ := Use.exists_gathers blockSize uses
  cases used.symm.trans used'
  have together := both.drain (alike_obeys pos unfailing works)
  rw [passed] at together
  obtain ⟨b', answer, both⟩ := together.exists_left
  obtain @⟨w, log, capacity, buffer, obeys⟩ := both
  obtain ⟨h, s, closes, run, asked, returned, closed⟩ := obeys.call pos unfailing works .close
  exact ⟨_, _, h, s, answer, close_of_call obeys.unclosed closes closed, rfl, run,
    asked.trans requests.symm, returned⟩

/-- Used and then closed, a buffer in front of a new writer has had its requests carried out. -/
theorem exists_close (pos : 0 < n) (unfailing : Sink.Unfailing good) (works : good sink)
    (threads : Threads) (blockSize : Nat) (uses : List Use) :
    ∃ b b' closed h s, Sink.useAll (BufferedSink.new (Writer.mk (.new settings
          (Pipeline.libraryCompressors settings n) sink) threads) blockSize) uses = (.done, b) ∧
      b.drain = (.done, b') ∧
      b'.sink.close = (.ok 0, closed) ∧ closed.sink = Sink.release s.sink ∧
      Pipeline.Run (.new settings (Pipeline.libraryCompressors settings n) sink) h s ∧
      h.requests = Use.requests blockSize uses ∧ s.Returned := by
  obtain ⟨logged, -, used, -⟩ := Use.exists_gathers blockSize uses
  have alike : Sink.Alike
      (Obeys (.new settings (Pipeline.libraryCompressors settings n) sink)) :=
    alike_obeys pos unfailing works
  have together := (BufferedSink.alike_over alike).useAll
    (over_new _ threads blockSize ⟨_, rfl⟩ rfl) uses
  rw [used] at together
  obtain ⟨b, answer, both⟩ := together.exists_left
  obtain ⟨b', closed, h, s, closes⟩ := exists_close_of_over pos unfailing works both used
  exact ⟨b, b', closed, h, s, answer, closes⟩

end Writer

/-! ## Both outputs -/

namespace Output

variable {ω : Type} [Sink ω]

theorem alike_parallel : Sink.Alike fun (output : Output ω) writer => output = parallel writer where
  write := by
    rintro _ writer bytes rfl -
    exact .intro (Sink.write writer bytes).1 rfl
  flush := by
    rintro _ writer rfl
    exact .intro (Sink.flush writer).1 rfl

theorem alike_serial : Sink.Alike fun (output : Output ω) encoder => output = serial encoder where
  write := by
    rintro _ encoder bytes rfl -
    exact .intro (Sink.write encoder bytes).1 rfl
  flush := by
    rintro _ encoder rfl
    exact .intro (Sink.flush encoder).1 rfl

theorem useAll_parallel {writer writer' : BufferedSink (Writer DeflateCompressor (Destination ω))}
    {uses : List Use} (used : Sink.useAll writer uses = (.done, writer')) :
    Sink.useAll (parallel writer) uses = (.done, parallel writer') := by
  have together := alike_parallel.useAll (rfl : parallel writer = parallel writer) uses
  rw [used] at together
  obtain ⟨_, answer, rfl⟩ := together.exists_left
  exact answer

theorem useAll_serial {encoder encoder' : Encoder (Destination ω)} {uses : List Use}
    (used : Sink.useAll encoder uses = (.done, encoder')) :
    Sink.useAll (serial encoder) uses = (.done, serial encoder') := by
  have together := alike_serial.useAll (rfl : serial encoder = serial encoder) uses
  rw [used] at together
  obtain ⟨_, answer, rfl⟩ := together.exists_left
  exact answer

/-- Used like this and then closed, an output never fails, and lets go of its destination when it has
    been filled like this. -/
def Fills (output : Output ω) (uses : List Use) (filled : Destination ω) : Prop :=
  ∃ used closed, Sink.useAll output uses = (.done, used) ∧ used.close = (.done (), closed) ∧
    closed.destination = Sink.release filled

/-! ### Opening -/

section Opening

variable {machine : Machine} {mode : OpenMode} {options : WriterOptions} {n : Nat}
  {files files' : Files} {target : Target ω} {d d' : Destination ω}

/-- Options that pass the checks of a writer pass those of an output, and ask for workers. -/
theorem check_of_validate (writes : mode.isWrite = true) (valid : options.validate machine = .ok n) :
    options.threads.isDisabled = false ∧ check machine mode options = .ok () := by
  have enabled : options.threads.isDisabled = false := by
    obtain ⟨-, -, -, -, some, resolved⟩ := WriterOptions.validate_eq_ok_iff.1 valid
    refine decide_eq_false ?_
    intro none
    rw [none] at resolved
    exact some resolved.symm
  refine ⟨enabled, ?_⟩
  simp only [check, writes, Bool.not_true, Bool.false_eq_true, if_false, enabled, valid]
  rfl

theorem open_eq_parallel (writes : mode.isWrite = true) (valid : options.validate machine = .ok n)
    (opens : files.openTarget mode target = .ok (d, files'))
    (header : Sink.writeAll d (Frame.header options.level) = (.done, d'))
    (hosts : machine.Hosts n options.queueSize) :
    Output.open machine files target mode options = .opened (.parallel (.new (Writer.mk
      (.new (Writer.settings options n valid)
        (Pipeline.libraryCompressors (Writer.settings options n valid) n) d') options.threads)
      options.blockSize)) files' := by
  obtain ⟨enabled, checks⟩ := check_of_validate writes valid
  rw [Output.open, checks]
  dsimp only
  rw [opens]
  simp only [enabled, Bool.false_eq_true, if_false, Writer.open_eq_opened valid header hosts]

/-- Opening panics if there cannot be room for the workers or their queues. -/
theorem open_eq_panicked (writes : mode.isWrite = true) (valid : options.validate machine = .ok n)
    (opens : files.openTarget mode target = .ok (d, files'))
    (header : Sink.writeAll d (Frame.header options.level) = (.done, d'))
    (full : Pipeline.fits n options.queueSize = false) :
    Output.open machine files target mode options =
      .panicked (target.leftBy d') (files'.storeDestination (Sink.release d')).1 := by
  obtain ⟨enabled, checks⟩ := check_of_validate writes valid
  rw [Output.open, checks]
  dsimp only
  rw [opens]
  simp only [enabled, Bool.false_eq_true, if_false, Writer.open_eq_panicked valid header full]

/-- Opening fails if the machine does not start a thread. -/
theorem open_eq_failed {failure : Error} (writes : mode.isWrite = true)
    (valid : options.validate machine = .ok n)
    (opens : files.openTarget mode target = .ok (d, files'))
    (header : Sink.writeAll d (Frame.header options.level) = (.done, d'))
    (fits : Pipeline.fits n options.queueSize = true)
    (refused : machine.spawnFailure? n = some failure) :
    Output.open machine files target mode options =
      .failed failure (target.leftBy d') (files'.storeDestination (Sink.release d')).1 := by
  obtain ⟨enabled, checks⟩ := check_of_validate writes valid
  rw [Output.open, checks]
  dsimp only
  rw [opens]
  simp only [enabled, Bool.false_eq_true, if_false,
    Writer.open_eq_failed valid header fits refused]

theorem open_eq_serial (writes : mode.isWrite = true)
    (valid : validateLevel options.level = .ok options.level)
    (disabled : options.threads.isDisabled = true)
    (opens : files.openTarget mode target = .ok (d, files')) :
    Output.open machine files target mode options =
      .opened (.serial (.new d options.level)) files' := by
  have checks : check machine mode options = .ok () := by
    simp only [check, writes, Bool.not_true, Bool.false_eq_true, if_false, disabled, if_true, valid]
    rfl
  rw [Output.open, checks]
  dsimp only
  rw [opens]
  simp only [disabled, if_true]

end Opening

/-! ### Writing -/

section Writing

variable [RecordingSink ω] {good : Destination ω → Prop} {d d' : Destination ω}

/-- In whatever order the steps were taken, a writer that has carried out what uses ask for has left
    members of their data. -/
theorem exists_filled_of_run {settings : Settings} {n : Nat} (pos : 0 < n)
    (unfailing : Sink.Unfailing good) (works : good d)
    (header : Sink.writeAll d (Frame.header settings.level) = (.done, d')) {blockSize : Nat}
    {uses : List Use} {h : History DeflateCompressor (Destination ω)}
    {s : Pipeline DeflateCompressor (Destination ω)}
    (run : Pipeline.Run (.new settings (Pipeline.libraryCompressors settings n) d') h s)
    (requests : h.requests = Use.requests blockSize uses) (returned : s.Returned) :
    good s.sink ∧ ∃ bytes, RecordingSink.contents s.sink = RecordingSink.contents d ++ bytes ∧
      IsStream bytes (Payloads.ofUses uses) := by
  obtain ⟨begun, written, begins⟩ := unfailing.writeAll works (Frame.header settings.level)
  cases header.symm.trans written
  obtain ⟨stays, calm⟩ := run.unfailing unfailing begins
  exact ⟨stays, (run.of_requests pos (RecordingSink.contents_of_writeAll_done header) calm requests
    returned).2⟩

/-- An output with workers leaves a member of what was written before each flush, and one of what
    was written after the last. -/
theorem fills_parallel (settings : Settings) {n : Nat} (pos : 0 < n)
    (unfailing : Sink.Unfailing good) (works : good d)
    (header : Sink.writeAll d (Frame.header settings.level) = (.done, d')) (threads : Threads)
    (blockSize : Nat) (uses : List Use) :
    ∃ filled bytes, Fills (.parallel (.new (Writer.mk
        (.new settings (Pipeline.libraryCompressors settings n) d') threads) blockSize)) uses
          filled ∧
      good filled ∧ RecordingSink.contents filled = RecordingSink.contents d ++ bytes ∧
      IsStream bytes (Payloads.ofUses uses) := by
  obtain ⟨begun, written, begins⟩ := unfailing.writeAll works (Frame.header settings.level)
  rw [header] at written
  cases written
  obtain ⟨b, b', closed, h, s, used, drained, closes, released, run, requests, returned⟩ :=
    Writer.exists_close pos unfailing begins threads blockSize uses
  obtain ⟨stays, bytes, holds, stream⟩ :=
    exists_filled_of_run pos unfailing works header run requests returned
  refine ⟨s.sink, bytes, ?_, stays, holds, stream⟩
  refine ⟨_, .parallel { b' with sink := closed }, useAll_parallel used, ?_, released⟩
  rw [Output.close, drained]
  dsimp only
  rw [closes]

/-- An output without workers leaves one member of all the data. -/
theorem fills_serial (unfailing : Sink.Unfailing good) (steady : Sink.Steady good) (works : good d)
    {level : Nat} (valid : validateLevel level = .ok level) (uses : List Use) :
    ∃ filled bytes, Fills (.serial (.new d level)) uses filled ∧ good filled ∧
      RecordingSink.contents filled = RecordingSink.contents d ++ bytes ∧
      IsStream bytes [uses.flatMap Use.data] ∧
      ∀ data, uses = [.writeAll data] → compress data level = .ok bytes := by
  obtain ⟨e, closed, filled, member, used, closes, released, stays, holds, isMember, alone⟩ :=
    Encoder.exists_close unfailing steady works valid uses
  refine ⟨filled, member, ?_, stays, holds, ?_, alone⟩
  · refine ⟨_, .serial closed, useAll_serial used, ?_, released⟩
    rw [Output.close, closes]
  · exact IsStream.nil.concat isMember

end Writing

/-! ### Agreement -/

section Agreement

variable [RecordingSink ω] {good : ω → Prop} {machine : Machine} {mode : OpenMode}
  {options : WriterOptions} {n : Nat}

/-- Both outputs fill a stream with the same data. On a stream that never fails, whatever data is
    written however it is cut, no request fails, whether to write, to flush or to close. With
    workers, which the machine has to be able to run, the stream then holds one member more than
    there were flushes, split at the flushes, and so it does if the parties take their steps in any
    other order. Without workers it holds one member, if nothing interrupts, and of one request that
    is what is compressed in memory. -/
theorem writers_agree (unfailing : Sink.Unfailing good) (sink : ω) (works : good sink)
    (writes : mode.isWrite = true) (valid : options.validate machine = .ok n) (files : Files)
    (uses : List Use) :
    (machine.Hosts n options.queueSize →
      ∃ writer, Output.open machine files (.stream sink) mode options =
          .opened (.parallel writer) files ∧
        (∃ filled bytes, Fills (.parallel writer) uses (.stream filled) ∧
          RecordingSink.contents filled = RecordingSink.contents sink ++ bytes ∧
          Decodes bytes (Payloads.ofUses uses)) ∧
        ∀ h s, writer.sink.pipeline.Run h s →
          h.requests = Use.requests options.blockSize uses → s.Returns ∧ (s.Returned →
            h.outcomes = Request.answers h.requests ∧
            ∃ filled bytes, s.sink = .stream filled ∧
              RecordingSink.contents filled = RecordingSink.contents sink ++ bytes ∧
              Decodes bytes (Payloads.ofUses uses))) ∧
    (Sink.Steady good →
      ∃ encoder, Output.open machine files (.stream sink) mode
            { options with threads := .fixed 0 } = .opened (.serial encoder) files ∧
        ∃ filled bytes, Fills (.serial encoder) uses (.stream filled) ∧
          RecordingSink.contents filled = RecordingSink.contents sink ++ bytes ∧
          Decodes bytes [uses.flatMap Use.data] ∧
          ∀ data, uses = [.writeAll data] → compress data options.level = .ok bytes) ∧
    (Payloads.ofUses uses).length = uses.countP Use.isFlush + 1 ∧
    (Payloads.ofUses uses).flatten = uses.flatMap Use.data := by
  have pos := (WriterOptions.pos_of_validate valid).2.2
  have unfailing := Destination.unfailing_onStream unfailing
  have works : Destination.OnStream good (.stream sink) := .intro works
  refine ⟨?_, ?_, Payloads.length_ofUses uses, Payloads.flatten_ofUses uses⟩
  · intro hosts
    obtain ⟨begun, header, begins⟩ := unfailing.writeAll works (Frame.header options.level)
    refine ⟨_, open_eq_parallel writes valid rfl header hosts, ?_, ?_⟩
    · obtain ⟨_, bytes, fills, ⟨-⟩, holds, stream⟩ := fills_parallel
        (Writer.settings options n valid) pos unfailing works header options.threads
        options.blockSize uses
      exact ⟨_, bytes, fills, holds, stream.decodes⟩
    · intro h s run requests
      refine ⟨run.returns (Pipeline.libraryCompressors_ne_nil pos), ?_⟩
      intro returned
      obtain ⟨stays, calm⟩ := run.unfailing unfailing begins
      obtain ⟨answers, bytes, holds, stream⟩ := Pipeline.Run.of_requests pos run
        (RecordingSink.contents_of_writeAll_done header) calm requests returned
      refine ⟨answers, ?_⟩
      generalize s.sink = filled at stays holds ⊢
      obtain ⟨-⟩ := stays
      exact ⟨_, bytes, rfl, holds, stream.decodes⟩
  · intro steady
    have level : validateLevel options.level = .ok options.level := by
      rw [validateLevel, if_pos ⟨Nat.zero_le _, (WriterOptions.validate_eq_ok_iff.1 valid).1⟩]
    refine ⟨_, open_eq_serial writes level rfl rfl, ?_⟩
    obtain ⟨_, bytes, fills, ⟨-⟩, holds, stream, alone⟩ := fills_serial unfailing
      (Destination.steady_onStream steady) works level uses
    exact ⟨_, bytes, fills, holds, stream.decodes, alone⟩

/-- An output in memory, with a worker and without: three bytes, a flush and another byte. -/
theorem writers_agree_two_members :
    ∃ (writer : BufferedSink (Writer DeflateCompressor (Destination (Array UInt8))))
      (encoder : Encoder (Destination (Array UInt8))) (filled filled' : Array UInt8),
      Output.open .ordinary {} (.stream #[]) .write { blockSize := 2 } =
        .opened (.parallel writer) {} ∧
      Fills (.parallel writer) [.writeAll [7, 7, 7], .flush, .writeAll [8]] (.stream filled) ∧
      Decodes filled.toList [[7, 7, 7], [8]] ∧
      Output.open .ordinary {} (.stream #[]) .write { blockSize := 2, threads := .fixed 0 } =
        .opened (.serial encoder) {} ∧
      Fills (.serial encoder) [.writeAll [7, 7, 7], .flush, .writeAll [8]] (.stream filled') ∧
      Decodes filled'.toList [[7, 7, 7, 8]] := by
  have valid : ({ blockSize := 2 } : WriterOptions).validate .ordinary = .ok 1 :=
    WriterOptions.validate_eq_ok_iff.2 (by decide)
  have writes : OpenMode.write.isWrite = true := rfl
  obtain ⟨parallel, serial, -⟩ := writers_agree Sink.unfailing_array #[] trivial writes valid {}
    [.writeAll [7, 7, 7], .flush, .writeAll [8]]
  obtain ⟨writer, opens, ⟨filled, bytes, fills, holds, decodes⟩, -⟩ :=
    parallel Machine.hosts_default
  obtain ⟨encoder, opens', filled', bytes', fills', holds', decodes', -⟩ :=
    serial Sink.steady_array
  obtain rfl : filled.toList = bytes := holds
  obtain rfl : filled'.toList = bytes' := holds'
  exact ⟨writer, encoder, filled, filled', opens, fills, decodes, opens', fills', decodes'⟩

/-- Where they do not agree. An output with workers panics when it is opened if there cannot be
    room for its queues or its workers, and fails if the machine starts no thread. One without
    reports an interruption when it is closed, although the stream never fails. -/
theorem writers_disagree :
    (({ queueSize := 0x4000000000000000 } : WriterOptions).validate .ordinary = .ok 1 ∧
      ¬∃ output, Output.open .ordinary {} (.stream (#[] : Array UInt8)) .write
        { queueSize := 0x4000000000000000 } = .opened output {}) ∧
    (({ threads := .fixed 0x1000000000000000 } : WriterOptions).validate .ordinary =
        .ok 0x1000000000000000 ∧
      ¬∃ output, Output.open .ordinary {} (.stream (#[] : Array UInt8)) .write
        { threads := .fixed 0x1000000000000000 } = .opened output {}) ∧
    (({} : WriterOptions).validate .exhausted = .ok 1 ∧
      ¬∃ output, Output.open .exhausted {} (.stream (#[] : Array UInt8)) .write {} =
        .opened output {}) ∧
    Sink.Unfailing ScriptedSink.Calm ∧
    ({ chunk := some 1, interrupt := 2 } : ScriptedSink).Calm ∧
    ∃ encoder, Output.open .ordinary {}
        (.stream ({ chunk := some 1, interrupt := 2 } : ScriptedSink)) .write
        { threads := .fixed 0 } = .opened (.serial encoder) {} ∧
      ¬∃ filled, Fills (.serial encoder) [] filled := by
  have queues : ({ queueSize := 0x4000000000000000 } : WriterOptions).validate .ordinary = .ok 1 :=
    WriterOptions.validate_workers .ordinary (by decide) (by decide)
  have lanes : ({ threads := .fixed 0x1000000000000000 } : WriterOptions).validate .ordinary =
      .ok 0x1000000000000000 := WriterOptions.validate_workers .ordinary (by decide) (by decide)
  have threads := WriterOptions.validate_default .exhausted
  obtain ⟨d, header, -⟩ := (Destination.unfailing_onStream Sink.unfailing_array).writeAll
    (.intro (w := (#[] : Array UInt8)) trivial) (Frame.header 6)
  refine ⟨⟨queues, ?_⟩, ⟨lanes, ?_⟩, ⟨threads, ?_⟩, ScriptedSink.unfailing, ?_, _,
    open_eq_serial rfl rfl rfl rfl, ?_⟩
  · rintro ⟨output, opens⟩
    rw [open_eq_panicked rfl queues rfl header (by decide)] at opens
    cases opens
  · rintro ⟨output, opens⟩
    rw [open_eq_panicked rfl lanes rfl header (by decide)] at opens
    cases opens
  · rintro ⟨output, opens⟩
    rw [open_eq_failed rfl threads rfl header (by decide)
      (Machine.spawnFailure?_exhausted Nat.one_pos)] at opens
    cases opens
  · exact ⟨by decide, by decide, rfl, rfl, rfl, rfl⟩
  · rintro ⟨filled, used, closed, used, closes, -⟩
    cases used
    -- the second request to write the header is interrupted
    have first : Sink.write (Destination.stream { chunk := some 1, interrupt := 2 : ScriptedSink })
        (Frame.wholeHeader defaultLevel) = (.wrote 1, .stream
          { collected := #[0x1f], writes := 1, chunk := some 1, interrupt := 2 }) := rfl
    have second : Sink.write (Destination.stream
          { collected := #[0x1f], writes := 1, chunk := some 1, interrupt := 2 : ScriptedSink })
        ((Frame.wholeHeader defaultLevel).drop 1) = (.interrupted interruption, .stream
          { collected := #[0x1f], writes := 2, chunk := some 1, interrupt := 2 }) := rfl
    have pushed : Sink.push (Destination.stream { chunk := some 1, interrupt := 2 : ScriptedSink })
        (Frame.wholeHeader defaultLevel) =
          (.interrupted interruption, (Frame.wholeHeader defaultLevel).drop 1, .stream
            { collected := #[0x1f], writes := 2, chunk := some 1, interrupt := 2 }) := by
      rw [Sink.push, if_neg (by decide), first]
      dsimp only
      rw [Sink.push, if_neg (by decide), second]
    simp only [Output.close, Encoder.close, Encoder.finish, Encoder.pushHeader, Encoder.new, pushed,
      Encoder.settled] at closes
    cases closes

end Agreement

end Output

end ParallelGzip
