import ParallelGzip.Members

set_option autoImplicit false

/-! # Reader: the parties of a reader that decodes ahead

Compressed data does not show where it could be cut, so one worker decodes it from front to back.
It puts chunks of decoded bytes into a bounded queue, from which the caller takes them. When the
worker is done it lets go of the queue; a failure is left in a slot before that, so a caller that
finds the queue let go of knows what the end means. -/

namespace ParallelGzip

/-- Read until `n` bytes have come, the source ends, or it fails; interruptions are retried. -/
def Source.readChunk {σ : Type} [Source σ] (s : σ) (n : Nat) (acc : Array UInt8) :
    Array UInt8 × Ending × σ :=
  if n = 0 then (acc, .ended, s)
  else
    match _h : Source.read s n with
    | (.delivered [], s') => (acc, .ended, s')
    | (.delivered (b :: bytes), s') =>
      Source.readChunk s' (n - (b :: bytes).length) (acc ++ (b :: bytes))
    | (.interrupted _, s') => Source.readChunk s' n acc
    | (.failed cause, s') => (acc, .failed cause, s')
    | (.panicked, s') => (acc, .panicked, s')
termination_by (Source.supply s, Source.patience s)
decreasing_by
  · have hs := Source.supply_read s n
    rw [_h] at hs
    simp only [ReadResult.count_delivered, List.length_cons] at hs
    exact Prod.Lex.left _ _ (by omega)
  · have hs := Source.supply_read s n
    have hp := Source.patience_read s n
    rw [_h] at hs hp
    exact Source.retry_lt (by simpa using hs) (hp rfl)

theorem Source.supply_readChunk {σ : Type} [Source σ] (s : σ) (n : Nat) (acc : Array UInt8) :
    Source.supply (Source.readChunk s n acc).2.2 + (Source.readChunk s n acc).1.size ≤
      Source.supply s + acc.size := by
  fun_induction Source.readChunk s n acc with
  | case1 => exact Nat.le_refl _
  | case2 s n acc hn s' h =>
    have := Source.supply_read s n
    rw [h] at this
    simpa using this
  | case3 s n acc hn b bytes s' h ih =>
    have := Source.supply_read s n
    rw [h] at this
    simp only [ReadResult.count_delivered] at this
    refine Nat.le_trans ih ?_
    rw [← Array.length_toList, Array.toList_appendList, List.length_append, Array.length_toList]
    omega
  | case4 s n acc hn _ s' h ih =>
    have := Source.supply_read s n
    rw [h] at this
    simp only [ReadResult.count_interrupted] at this
    omega
  | case5 s n acc hn cause s' h =>
    have := Source.supply_read s n
    rw [h] at this
    simp only [ReadResult.count_failed] at this ⊢
    omega
  | case6 s n acc hn s' h =>
    have := Source.supply_read s n
    rw [h] at this
    simp only [ReadResult.count_panicked] at this ⊢
    omega

/-- What the worker of a reader is about to do. -/
inductive DecoderPhase
  /-- Look whether to stop. -/
  | checking
  /-- Decode the next chunk. -/
  | decoding
  /-- Put a chunk into the queue, and report the failure that came after it, if there was one. -/
  | sending (chunk : Bytes) (failure : Option Error)
  /-- Leave a failure in the slot. -/
  | recording (failure : Error)
  /-- Let go of the queue. -/
  | closing
  | exited

/-- What the caller of a reader is about to do. -/
inductive CallerPhase
  /-- No call is running; the last one came to this. -/
  | ready (result : Except Error Unit)
  /-- Take the next chunk from the queue. -/
  | filling
  /-- Tell the worker to stop. -/
  | stopping
  /-- Let go of the queue. -/
  | detaching
  /-- Wait for the worker to exit. -/
  | joining

/-- A reader with its worker. -/
structure Reader (σ : Type) where
  chunkSize : Nat
  queueSize : Nat
  decoder : Members σ
  worker : DecoderPhase
  queue : List Bytes
  /-- Whether the worker has been told to stop. -/
  stop : Bool
  /-- The slot for the failure of the worker. -/
  failure : Option Error
  /-- Whether the caller still holds its end of the queue. -/
  attached : Bool
  caller : CallerPhase
  /-- What is left of the chunk taken last. -/
  rest : Bytes
  /-- Bytes handed to the caller so far. -/
  position : Nat
  closed : Bool

/-- Bytes fetched from the source at a time. -/
def Reader.inputCapacity : Nat := 128 * 1024

/-- A reader before the first call. -/
def Reader.new {σ : Type} (source : σ) (chunkSize queueSize : Nat) : Reader σ where
  chunkSize := chunkSize
  queueSize := queueSize
  decoder := .new ⟨source, inputCapacity, []⟩
  worker := .checking
  queue := []
  stop := false
  failure := none
  attached := true
  caller := .ready (.ok ())
  rest := []
  position := 0
  closed := false

/-- Bytes of a place in the queue. -/
def Reader.placeSize : Nat := 32

/-- Open a reader. A queue for which there cannot be room makes it panic; that the machine has the
    memory and starts the worker is taken for granted. -/
def Reader.open {σ : Type} (source : σ) (options : ReaderOptions) : Attempt (Reader σ) :=
  match options.validate with
  | .error failure => .failed failure
  | .ok () =>
    if canAllocate placeSize options.queueSize then
      .done (.new source options.blockSize options.queueSize)
    else .panicked

end ParallelGzip
