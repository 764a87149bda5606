import ParallelGzip.Encoder
import ParallelGzip.Files.Handle
import ParallelGzip.Writer

set_option autoImplicit false

/-! # Output: gzip written to a path or a stream

An output runs a writer with workers behind a buffer of one block, or an encoder if no workers are
wanted. Options are checked before a path is touched. Flushing an output with workers ends a member,
flushing one without does not. -/

namespace ParallelGzip

/-! ## Where output goes -/

/-- A path or a stream to write to. -/
inductive Target (ω : Type)
  | path (name : String)
  | stream (sink : ω)

/-- An open file, behind a buffer of its own, or a stream. -/
inductive Destination (ω : Type)
  | file (f : BufferedSink OutputFile)
  | stream (sink : ω)

namespace Destination

/-- Bytes gathered in front of an open file. -/
def fileCapacity : Nat := 8 * 1024

variable {ω : Type} [Sink ω]

/-- Offer bytes. -/
def write (d : Destination ω) (bytes : Bytes) : WriteResult × Destination ω :=
  match d with
  | .file f =>
    let (result, f) := Sink.write f bytes
    (result, .file f)
  | .stream sink =>
    let (result, sink) := Sink.write sink bytes
    (result, .stream sink)

/-- Pass everything on. -/
def flush (d : Destination ω) : FlushResult × Destination ω :=
  match d with
  | .file f =>
    let (result, f) := Sink.flush f
    (result, .file f)
  | .stream sink =>
    let (result, sink) := Sink.flush sink
    (result, .stream sink)

/-- Let go of the file or the stream. -/
def release : Destination ω → Destination ω
  | .file f => .file (Sink.release f)
  | .stream sink => .stream (Sink.release sink)

/-- The patience of the file or the stream. -/
def patience : Destination ω → Nat
  | .file f => Sink.patience f
  | .stream sink => Sink.patience sink

instance : Sink (Destination ω) where
  write := write
  flush := flush
  release := release
  patience := patience
  patience_write d bytes _ h := by
    cases d with
    | file f => exact Sink.patience_write f bytes h
    | stream sink => exact Sink.patience_write sink bytes h

end Destination

/-- Bring what has reached an open file into the store. -/
def Files.storeDestination {ω : Type} (files : Files) (d : Destination ω) :
    Files × Destination ω :=
  match d with
  | .file f =>
    let (files, handle) := files.store f.sink
    (files, .file { f with sink := handle })
  | .stream sink => (files, .stream sink)

/-- Open a target in a mode other than reading. -/
def Files.openTarget {ω : Type} (files : Files) (mode : OpenMode) (target : Target ω) :
    Except SystemError (Destination ω × Files) :=
  match target with
  | .path name =>
    match files.openOutput mode name with
    | .ok (handle, files) => .ok (.file (.new handle Destination.fileCapacity), files)
    | .error cause => .error cause
  | .stream sink => .ok (.stream sink, files)

/-- A target as its destination leaves it. -/
def Target.leftBy {ω : Type} (target : Target ω) : Destination ω → Target ω
  | .file _ => target
  | .stream sink => .stream sink

/-! ## Outputs -/

/-- An open output. -/
inductive Output (ω : Type)
  /-- Written by workers. -/
  | parallel (writer : BufferedSink (Writer DeflateCompressor (Destination ω)))
  /-- Written without workers. -/
  | serial (encoder : Encoder (Destination ω))

namespace Output

variable {ω : Type} [Sink ω]

/-- Refuse a mode that is not for writing, and options out of range. Without workers nothing but the
    level matters. -/
def check (machine : Machine) (mode : OpenMode) (options : WriterOptions) :
    Except Error Unit := do
  if !mode.isWrite then throw (.invalidMode (mode.name ++ " cannot be used for writing"))
  if options.threads.isDisabled then
    let _ ← validateLevel options.level
  else
    let _ ← options.validate machine

/-- What opening an output came to. In every case the files are as they are then, and in case of a
    failure so is the target. -/
inductive Opening (ω : Type)
  | opened (output : Output ω) (files : Files)
  | failed (failure : Error) (target : Target ω) (files : Files)
  | panicked (target : Target ω) (files : Files)

/-- Open an output. -/
def «open» (machine : Machine) (files : Files) (target : Target ω) (mode : OpenMode)
    (options : WriterOptions) : Opening ω :=
  match check machine mode options with
  | .error failure => .failed failure target files
  | .ok () =>
    match files.openTarget mode target with
    | .error cause => .failed (.io (.system cause)) target files
    | .ok (destination, files) =>
      if options.threads.isDisabled then
        .opened (.serial (.new destination options.level)) files
      else
        match Writer.open machine destination options with
        | .opened writer => .opened (.parallel (.new writer options.blockSize)) files
        | .failed failure left =>
          .failed failure (target.leftBy left) (files.storeDestination (Sink.release left)).1
        | .panicked left =>
          .panicked (target.leftBy left) (files.storeDestination (Sink.release left)).1

/-- Whether workers do the writing. -/
def isThreaded : Output ω → Bool
  | parallel _ => true
  | serial _ => false

/-- Where the output goes. -/
def destination : Output ω → Destination ω
  | parallel writer => writer.sink.sink
  | serial encoder => encoder.sink

/-- An output on another destination. -/
def withDestination (output : Output ω) (d : Destination ω) : Output ω :=
  match output with
  | parallel writer =>
    .parallel { writer with
      sink := { writer.sink with pipeline := { writer.sink.pipeline with sink := d } } }
  | serial encoder => .serial { encoder with sink := d }

/-! ## An output is a sink -/

/-- Offer bytes. -/
def write (output : Output ω) (bytes : Bytes) : WriteResult × Output ω :=
  match output with
  | parallel writer =>
    let (result, writer) := Sink.write writer bytes
    (result, .parallel writer)
  | serial encoder =>
    let (result, encoder) := Sink.write encoder bytes
    (result, .serial encoder)

/-- Write everything that has been offered. -/
def flush (output : Output ω) : FlushResult × Output ω :=
  match output with
  | parallel writer =>
    let (result, writer) := Sink.flush writer
    (result, .parallel writer)
  | serial encoder =>
    let (result, encoder) := Sink.flush encoder
    (result, .serial encoder)

/-- Write as much as can be written, and let go of the destination. -/
def release : Output ω → Output ω
  | parallel writer => .parallel (Sink.release writer)
  | serial encoder => .serial (Sink.release encoder)

/-- The patience of what does the writing. -/
def patience : Output ω → Nat
  | parallel writer => Sink.patience writer
  | serial encoder => Sink.patience encoder

instance : Sink (Output ω) where
  write := write
  flush := flush
  release := release
  patience := patience
  patience_write output bytes _ h := by
    cases output with
    | parallel writer => exact Sink.patience_write writer bytes h
    | serial encoder => exact Sink.patience_write encoder bytes h

/-! ## Closing -/

/-- Write everything that has been offered, end the member, and let go of the destination. -/
def close (output : Output ω) : Attempt Unit × Output ω :=
  match output with
  | parallel writer =>
    match writer.drain with
    | (.done, writer) =>
      match writer.sink.close with
      | (.ok _, w) => (.done (), .parallel { writer with sink := w })
      | (.error failure, w) => (.failed failure, .parallel { writer with sink := w })
    | (.failed cause, writer) => (.failed (.ofIo cause), .parallel writer.release)
    | (.panicked, writer) => (.panicked, .parallel writer)
  | serial encoder =>
    match encoder.close with
    | (.done, encoder) => (.done (), .serial encoder)
    | (.failed cause, encoder) => (.failed (.ofIo cause), .serial encoder)
    | (.panicked, encoder) => (.panicked, .serial encoder)

end Output

/-- Bring what an output has written to an open file into the store. -/
def Files.storeOutput {ω : Type} [Sink ω] (files : Files) (output : Output ω) : Files × Output ω :=
  let (files, d) := files.storeDestination output.destination
  (files, output.withDestination d)

end ParallelGzip
