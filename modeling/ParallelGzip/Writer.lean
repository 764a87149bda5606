import ParallelGzip.Pipeline.Run

set_option autoImplicit false

/-! # Writer: gzip written by several workers

A writer checks its options, writes the header of the first member, and then runs a pipeline. The
first failure of any party is reported by a later call, which closes the writer; a closed writer
refuses everything but being closed again. Letting go of a writer closes it. -/

namespace ParallelGzip

/-- Options that pass the checks have room for something everywhere. -/
theorem WriterOptions.pos_of_validate {options : WriterOptions} {machine : Machine} {n : Nat}
    (h : options.validate machine = .ok n) :
    0 < options.blockSize ∧ 0 < options.queueSize ∧ 0 < n := by
  simp only [validate, bind, Except.bind, validateLevel, validateBlockSize, validateQueueSize,
    validateWorkers] at h
  grind

/-- The failure to start `count` workers and the sequencer after them, at the first thread that the
    machine does not start. -/
def Machine.spawnFailure? (machine : Machine) (count : Nat) : Option Error :=
  let failure? (party : String) (thread : Nat) : Option Error :=
    (machine.refusal? thread).map fun reason =>
      .thread ("failed to spawn " ++ party ++ ": " ++ reason)
  ((List.range count).findSome? (failure? "worker")).or (failure? "sequencer" count)

/-- Whether all lanes and queues can be asked for. -/
def Pipeline.fits (count queueSize : Nat) : Bool :=
  canAllocate laneSize count && canAllocate placeSize queueSize

/-- A writer with workers of type `κ` on a sink of type `ω`. -/
structure Writer (κ ω : Type) where
  pipeline : Pipeline κ ω
  /-- How many workers were asked for. -/
  threads : Threads

namespace Writer

variable {κ ω : Type} [BlockCompressor κ] [Sink ω]

/-- What opening a writer came to. In every case the sink is left as it is then. -/
inductive Opening (κ ω : Type)
  | opened (writer : Writer κ ω)
  | failed (failure : Error) (sink : ω)
  | panicked (sink : ω)

/-- Open a writer whose worker on lane `i` has the compressor `compressor i`. Lanes or queues for
    which there cannot be room make it panic behind the header, and a thread that the machine does
    not start makes it fail there. -/
def openWith (machine : Machine) (sink : ω) (options : WriterOptions) (compressor : Nat → κ) :
    Opening κ ω :=
  match h : options.validate machine with
  | .error failure => .failed failure sink
  | .ok count =>
    have pos := WriterOptions.pos_of_validate h
    match Sink.writeAll sink (Frame.header options.level) with
    | (.failed cause, sink) => .failed (.ofIo cause) sink
    | (.panicked, sink) => .panicked sink
    | (.done, sink) =>
      if Pipeline.fits count options.queueSize then
        match machine.spawnFailure? count with
        | some failure => .failed failure sink
        | none =>
          let settings : Settings :=
            ⟨options.level, options.blockSize, options.queueSize, pos.1, pos.2.1⟩
          .opened ⟨.new settings ((List.range count).map compressor) sink, options.threads⟩
      else .panicked sink

/-- Open a writer with the compressors of the library. -/
def «open» (machine : Machine) (sink : ω) (options : WriterOptions) :
    Opening DeflateCompressor ω :=
  match compressBufferSize? options.blockSize with
  | none => .panicked sink
  | some capacity => openWith machine sink options fun _ => ⟨options.level, capacity⟩

/-- The compression level. -/
def level (w : Writer κ ω) : Nat := w.pipeline.settings.level

/-- Whether the writer is closed. -/
def isClosed (w : Writer κ ω) : Bool := w.pipeline.owner.closed

/-- Bytes accepted so far, over all members. -/
def totalIn (w : Writer κ ω) : Nat := w.pipeline.owner.accepted

/-- The sink. -/
def sink (w : Writer κ ω) : ω := w.pipeline.sink

/-- Make a call. -/
def call (w : Writer κ ω) (c : Call) : Except Error Nat × Writer κ ω :=
  let (result, pipeline) := w.pipeline.call c
  (result, { w with pipeline := pipeline })

/-- Let go of the sink. -/
def release (w : Writer κ ω) : Writer κ ω :=
  { w with pipeline := { w.pipeline with sink := Sink.release w.pipeline.sink } }

/-- Make a call and let go of the sink if it closed the writer. -/
def callAndRelease (w : Writer κ ω) (c : Call) : Except Error Nat × Writer κ ω :=
  let (result, w') := w.call c
  (result, if w'.isClosed && !w.isClosed then w'.release else w')

/-- Accept bytes for compression; the result is how many there were. -/
def submit (w : Writer κ ω) (data : Bytes) : Except Error Nat × Writer κ ω :=
  w.callAndRelease (.submit data)

/-- Wait until everything submitted is in the sink, end the member and begin another one. -/
def flushMember (w : Writer κ ω) : Except Error Nat × Writer κ ω := w.callAndRelease .flush

/-- End the last member and stop everything. A closed writer stays as it is. -/
def close (w : Writer κ ω) : Except Error Nat × Writer κ ω := w.callAndRelease .close

/-- End the last member, stop everything and give the sink back. -/
def finish (w : Writer κ ω) : Except Error ω × Writer κ ω :=
  if w.isClosed then (.error .closed, w)
  else
    match w.call .close with
    | (.ok _, w) => (.ok w.sink, w)
    | (.error failure, w) => (.error failure, w.release)

/-! ## A writer is a sink -/

/-- Offer bytes through the interface of sinks. A failure that reads as an interruption closes the
    writer, so that another attempt meets a closed writer. -/
def write (w : Writer κ ω) (data : Bytes) : WriteResult × Writer κ ω :=
  match w.submit data with
  | (.ok n, w') => (.wrote n, w')
  | (.error failure, w') =>
    -- a caller that is told of an interruption tries again
    if failure.streamKind = .interrupted ∧ w.isClosed = false ∧ w'.isClosed = true then
      (.interrupted (failure.toIo false), w')
    else (.failed (failure.toIo false), w')

/-- End the member through the interface of sinks. -/
def flush (w : Writer κ ω) : FlushResult × Writer κ ω :=
  match w.flushMember with
  | (.ok _, w) => (.done, w)
  | (.error failure, w) => (.failed (failure.toIo false), w)

/-- An open writer can be interrupted once. -/
def patience (w : Writer κ ω) : Nat := if w.isClosed then 0 else 1

theorem patience_write (w : Writer κ ω) (data : Bytes) ⦃cause : IoError⦄
    (h : (w.write data).1 = .interrupted cause) :
    (w.write data).2.patience < w.patience := by
  rw [write] at h ⊢
  split at h
  · cases h
  · next failure w' hs =>
    split at h
    · next hc =>
      rw [if_pos hc]
      simp [patience, hc.2.1, hc.2.2]
    · cases h

instance : Sink (Writer κ ω) where
  write := write
  flush := flush
  release w := w.close.2
  patience := patience
  patience_write := patience_write

end Writer

/-! ## Whole values in memory -/

/-- Compress with several workers. -/
def compressThreaded (machine : Machine) (data : Bytes) (options : WriterOptions) :
    Attempt Bytes :=
  match Writer.open machine (#[] : Array UInt8) options with
  | .failed failure _ => .failed failure
  | .panicked _ => .panicked
  | .opened w =>
    match w.submit data with
    | (.error failure, _) => .failed failure
    | (.ok _, w) =>
      match w.finish with
      | (.error failure, _) => .failed failure
      | (.ok sink, _) => .done sink.toList

end ParallelGzip
