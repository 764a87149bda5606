import ParallelGzip.Compressor
import ParallelGzip.Member.Frame
import ParallelGzip.Stream.Sink

set_option autoImplicit false

/-! # Pipeline: the parties of a parallel writer

A writer runs an owner, which is the caller's side, one worker on each lane, and a sequencer,
which alone touches the sink. The owner puts entries into the bounded input queues of the lanes in
turn; each worker compresses the blocks of its lane and passes entries on through its bounded
output queue; the sequencer takes from the output queues in the same turn, so entries reach the
sink in the order in which they were submitted. The end of a member is an entry like a block.

The first failure is left in a slot, and a flag tells every party to stop. A party that is gone
lets go of its ends of the queues, and its neighbours notice. -/

namespace ParallelGzip

/-- What a writer is asked to work with. -/
structure Settings where
  level : Nat
  blockSize : Nat
  queueSize : Nat
  blockSize_pos : 0 < blockSize
  queueSize_pos : 0 < queueSize

/-- What the owner submits. -/
inductive Entry
  /-- A block with its number, counted over blocks only, and what a match may reach back into. -/
  | block (number : Nat) (data dictionary : Bytes)
  /-- The end of a member, and the level for the header of the next one if there is to be one. -/
  | memberEnd (next : Option Nat)
  deriving DecidableEq

/-- What a worker makes of an entry. -/
inductive Rendered
  | block (number : Nat) (compressed : CompressedBlock)
  | memberEnd (next : Option Nat)
  deriving DecidableEq

/-! ## Workers -/

/-- What a worker is about to do. -/
inductive Worker
  /-- Take an entry from its input queue. -/
  | receiving
  /-- Look whether to stop before working on an entry. -/
  | received (entry : Entry)
  | compressing (number : Nat) (data dictionary : Bytes)
  /-- Put an entry into its output queue. -/
  | sending (rendered : Rendered)
  /-- Leave a failure in the slot. -/
  | recording (failure : Error)
  /-- Tell everybody to stop. -/
  | cancelling
  /-- Let go of its output queue. -/
  | closingOutput
  /-- Let go of its input queue. -/
  | closingInput
  | exited

/-- A worker with its two queues. -/
structure Lane (κ : Type) where
  compressor : κ
  inbox : List Entry
  worker : Worker
  outbox : List Rendered
  /-- Whether the owner still holds its end of the input queue. -/
  ownerAttached : Bool
  /-- Whether the sequencer still holds its end of the output queue. -/
  sequencerAttached : Bool

/-- Whether a worker still holds its end of its input queue. -/
def Worker.holdsInput : Worker → Bool
  | exited => false
  | _ => true

/-- Whether a worker still holds its end of its output queue. -/
def Worker.holdsOutput : Worker → Bool
  | closingInput => false
  | exited => false
  | _ => true

/-- A lane before the first entry. -/
def Lane.new {κ : Type} (compressor : κ) : Lane κ where
  compressor := compressor
  inbox := []
  worker := .receiving
  outbox := []
  ownerAttached := true
  sequencerAttached := true

/-! ## The sequencer -/

/-- What the sequencer is about to do. -/
inductive SequencerPhase
  /-- Take the next entry from the lane whose turn it is. -/
  | receiving
  /-- Look whether to stop before writing an entry. -/
  | received (rendered : Rendered)
  /-- Write what is left of an entry, and then perhaps pass everything on. -/
  | writing (rest : Bytes) (thenFlush : Bool)
  | flushing
  /-- Publish that one more entry is done. -/
  | advancing
  /-- Leave a failure in the slot. -/
  | recording (failure : Error)
  /-- Tell everybody to stop. -/
  | cancelling
  /-- Let go of the output queues, one after the other. -/
  | closing (lane : Nat)
  | exited

/-- The sequencer with the checksum and the length of the member so far. -/
structure Sequencer where
  phase : SequencerPhase
  /-- The number of the next entry. -/
  index : Nat
  crc : UInt32
  size : Nat
  /-- Whether the sink panicked. -/
  panicked : Bool

/-- The sequencer before the first entry. -/
def Sequencer.new : Sequencer := ⟨.receiving, 0, 0, 0, false⟩

/-! ## The owner -/

/-- A call of the writer. -/
inductive Call
  | submit (data : Bytes)
  /-- End the member and begin another. -/
  | flush
  /-- End the last member and stop. -/
  | close

/-- What the owner is about to do. -/
inductive OwnerPhase
  /-- No call is running; the last one came to this. -/
  | ready (result : Except Error Nat)
  /-- Look whether a failure has been left. -/
  | checking (call : Call)
  /-- Submit the rest of some data of length `total`, a block at a time. -/
  | submitting (rest : Bytes) (total : Nat)
  /-- Submit the end of a member. -/
  | ending (next : Option Nat)
  /-- Wait until so many entries are done. -/
  | waiting (target : Nat) (last : Bool)
  /-- Tell everybody to stop after a failure. -/
  | cancelling
  /-- Let go of the input queues, one after the other. -/
  | closing (lane : Nat) (failed : Bool)
  /-- Wait for the workers to exit, one after the other. -/
  | joining (lane : Nat) (failed : Bool)
  /-- Wait for the sequencer to exit. -/
  | joiningSequencer (failed : Bool)
  /-- Take the failure out of the slot. -/
  | reporting (failed : Bool)

/-- The owner. -/
structure Owner where
  phase : OwnerPhase
  /-- Entries submitted so far. -/
  submitted : Nat
  /-- The block before in the member, empty at its start. -/
  previous : Bytes
  /-- Blocks submitted so far. -/
  blocks : Nat
  /-- Bytes in these blocks. -/
  accepted : Nat
  closed : Bool

/-- The owner before the first call. -/
def Owner.new : Owner := ⟨.ready (.ok 0), 0, [], 0, 0, false⟩

/-! ## All together -/

/-- Bytes of a place in an output queue, the larger of the two queues of a lane. -/
def Pipeline.placeSize : Nat := 56

/-- Bytes of a lane in the largest of the lists kept for all lanes, that of the threads. -/
def Pipeline.laneSize : Nat := 24

/-- A writer with all its parties. -/
structure Pipeline (κ ω : Type) where
  settings : Settings
  lanes : List (Lane κ)
  sequencer : Sequencer
  sink : ω
  /-- Entries that are done, as published by the sequencer. -/
  sequenced : Nat
  /-- Whether everybody has been told to stop. -/
  cancelled : Bool
  /-- The slot for the first failure. -/
  failure : Option Error
  owner : Owner

/-- A writer on a sink that holds the header of the first member, with one compressor per lane. -/
def Pipeline.new {κ ω : Type} (settings : Settings) (compressors : List κ) (sink : ω) :
    Pipeline κ ω where
  settings := settings
  lanes := compressors.map Lane.new
  sequencer := .new
  sink := sink
  sequenced := 0
  cancelled := false
  failure := none
  owner := .new

end ParallelGzip
