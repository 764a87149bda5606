import ParallelGzip.Files.Handle
import ParallelGzip.Reader.Run

set_option autoImplicit false

/-! # Input: gzip read from a path or a stream

An input runs a reader that decodes ahead, or decodes on demand behind a buffer of one block if no
worker is wanted. Either way it is a buffered source. The failures of a reader are errors of this
library on their way through a stream; decoding on demand passes on the I/O errors of the
decoder. -/

namespace ParallelGzip

/-! ## Where input comes from -/

/-- A path or a stream to read from. -/
inductive Provider (σ : Type)
  | path (name : String)
  | stream (source : σ)

/-- An open file or a stream. -/
inductive Origin (σ : Type)
  | file (f : InputFile)
  | stream (source : σ)

namespace Origin

variable {σ : Type} [Source σ]

/-- Ask for at most `n` bytes. -/
def read (o : Origin σ) (n : Nat) : ReadResult × Origin σ :=
  match o with
  | .file f =>
    let (result, f) := Source.read f n
    (result, .file f)
  | .stream source =>
    let (result, source) := Source.read source n
    (result, .stream source)

/-- The supply of the file or the stream. -/
def supply : Origin σ → Nat
  | .file f => Source.supply f
  | .stream source => Source.supply source

/-- The patience of the file or the stream. -/
def patience : Origin σ → Nat
  | .file f => Source.patience f
  | .stream source => Source.patience source

instance : Source (Origin σ) where
  read := read
  supply := supply
  patience := patience
  supply_read o n := by
    cases o with
    | file f => exact Source.supply_read f n
    | stream source => exact Source.supply_read source n
  patience_read o n _ h := by
    cases o with
    | file f => exact Source.patience_read f n h
    | stream source => exact Source.patience_read source n h

end Origin

/-- Open what input is to come from. -/
def Files.openProvider {σ : Type} (files : Files) (provider : Provider σ) :
    Except SystemError (Origin σ) :=
  match provider with
  | .path name => (files.openInput name).map .file
  | .stream source => .ok (.stream source)

/-! ## Inputs -/

/-- An open input. -/
inductive Input (σ : Type)
  /-- Decoded ahead by a worker. -/
  | ahead (reader : Reader (Origin σ))
  /-- Decoded on demand. -/
  | onDemand (decoder : Buffered (Members (Origin σ)))

namespace Input

/-- Compressed bytes fetched at a time when decoding on demand. -/
def fetchCapacity : Nat := 8 * 1024

variable {σ : Type} [Source σ]

/-- Open an input. -/
def «open» (files : Files) (provider : Provider σ) (options : ReaderOptions) :
    Attempt (Input σ) :=
  match options.validate with
  | .error failure => .failed failure
  | .ok () =>
    match files.openProvider provider with
    | .error cause => .failed (.io (.system cause))
    | .ok origin =>
      if options.threads.isDisabled then
        .done (.onDemand ⟨Members.new ⟨origin, fetchCapacity, []⟩, options.blockSize, []⟩)
      else
        match Reader.open origin options with
        | .done reader => .done (.ahead reader)
        | .failed failure => .failed failure
        | .panicked => .panicked

/-- Whether a worker decodes ahead. -/
def isThreaded : Input σ → Bool
  | ahead _ => true
  | onDemand _ => false

/-- Ask for at most `n` bytes. -/
def read (input : Input σ) (n : Nat) : ReadResult × Input σ :=
  match input with
  | ahead reader =>
    let (result, reader) := Source.read reader n
    (result, .ahead reader)
  | onDemand decoder =>
    let (result, decoder) := Source.read decoder n
    (result, .onDemand decoder)

/-- The buffered bytes, decoded first if there are none; none are left at the end. -/
def fillBuffer (input : Input σ) : ReadResult × Input σ :=
  match input with
  | ahead reader =>
    let (result, reader) := BufferedSource.fillBuffer reader
    (result, .ahead reader)
  | onDemand decoder =>
    let (result, decoder) := BufferedSource.fillBuffer decoder
    (result, .onDemand decoder)

/-- Drop so many of the buffered bytes. -/
def consume (input : Input σ) (n : Nat) : Input σ :=
  match input with
  | ahead reader => .ahead (BufferedSource.consume reader n)
  | onDemand decoder => .onDemand (BufferedSource.consume decoder n)

/-- The supply of what does the decoding. -/
def supply : Input σ → Nat
  | ahead reader => Source.supply reader
  | onDemand decoder => Source.supply decoder

/-- The patience of what does the decoding. -/
def patience : Input σ → Nat
  | ahead reader => Source.patience reader
  | onDemand decoder => Source.patience decoder

instance : BufferedSource (Input σ) where
  read := read
  supply := supply
  patience := patience
  supply_read input n := by
    cases input with
    | ahead reader => exact Source.supply_read reader n
    | onDemand decoder => exact Source.supply_read decoder n
  patience_read input n _ h := by
    cases input with
    | ahead reader => exact Source.patience_read reader n h
    | onDemand decoder => exact Source.patience_read decoder n h
  fillBuffer := fillBuffer
  consume := consume
  supply_fillBuffer input := by
    cases input with
    | ahead reader => exact BufferedSource.supply_fillBuffer reader
    | onDemand decoder => exact BufferedSource.supply_fillBuffer decoder
  patience_fillBuffer input _ h := by
    cases input with
    | ahead reader => exact BufferedSource.patience_fillBuffer reader h
    | onDemand decoder => exact BufferedSource.patience_fillBuffer decoder h
  supply_consume input n h := by
    cases input with
    | ahead reader => exact BufferedSource.supply_consume reader n h
    | onDemand decoder => exact BufferedSource.supply_consume decoder n h

/-- Replace the origin. -/
def mapOrigin (f : Origin σ → Origin σ) (input : Input σ) : Input σ :=
  match input with
  | ahead reader =>
    .ahead { reader with
      decoder := { reader.decoder with holding := reader.decoder.holding.mapSource f } }
  | onDemand decoder =>
    .onDemand { decoder with
      source := { decoder.source with holding := decoder.source.holding.mapSource f } }

end Input

/-- Let an input see the content of its file. -/
def Files.refreshInput {σ : Type} (files : Files) (input : Input σ) : Input σ :=
  input.mapOrigin fun
    | .file f => .file (files.refresh f)
    | .stream source => .stream source

end ParallelGzip
