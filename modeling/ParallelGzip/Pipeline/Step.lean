import ParallelGzip.Checksum.Combine
import ParallelGzip.Pipeline.Basic

set_option autoImplicit false

/-! # Pipeline steps: what each party may do next

`Pipeline.step?` says what one party does next, or that it has to wait for the others. A step
touches what the parties share at most once, so the runs of a writer are the sequences of these
steps in any order. Within a step everything is determined. -/

namespace ParallelGzip

variable {κ ω : Type}

/-! ## Workers -/

/-- What a step of a worker leaves for everybody. -/
inductive Notice
  | nothing
  | failure (failure : Error)
  | cancel

/-- The failure of a thread that panicked. -/
def panicOf (role : String) : Error := .thread (role ++ " panicked")

/-- The next step of a worker, which waits while its input queue is empty or its output queue
    full. -/
def Lane.step? [BlockCompressor κ] (lane : Lane κ) (queueSize : Nat) (cancelled : Bool) :
    Option (Lane κ × Notice) :=
  match lane.worker with
  | .receiving =>
    -- what is in the queue is received even if the owner has let go of it
    match lane.inbox with
    | entry :: rest => some ({ lane with inbox := rest, worker := .received entry }, .nothing)
    | [] =>
      if lane.ownerAttached then none
      else some ({ lane with worker := .closingOutput }, .nothing)
  | .received entry =>
    if cancelled then some ({ lane with worker := .closingOutput }, .nothing)
    else
      match entry with
      | .block number data dictionary =>
        some ({ lane with worker := .compressing number data dictionary }, .nothing)
      | .memberEnd next => some ({ lane with worker := .sending (.memberEnd next) }, .nothing)
  | .compressing number data dictionary =>
    match BlockCompressor.compress lane.compressor data dictionary with
    | (.block compressed, compressor) =>
      some ({ lane with
        compressor := compressor, worker := .sending (.block number compressed) }, .nothing)
    | (.failed cause, compressor) =>
      some ({ lane with
        compressor := compressor, worker := .recording (cause.inBlock number) }, .nothing)
    | (.panicked, compressor) =>
      some ({ lane with
        compressor := compressor, worker := .recording (panicOf "compress worker") }, .nothing)
  | .sending rendered =>
    if !lane.sequencerAttached then some ({ lane with worker := .closingOutput }, .nothing)
    else if lane.outbox.length < queueSize then
      some ({ lane with outbox := lane.outbox ++ [rendered], worker := .receiving }, .nothing)
    else none
  | .recording failure => some ({ lane with worker := .cancelling }, .failure failure)
  | .cancelling => some ({ lane with worker := .closingOutput }, .cancel)
  -- the sequencer can see that the worker leaves before the owner can
  | .closingOutput => some ({ lane with worker := .closingInput }, .nothing)
  | .closingInput => some ({ lane with inbox := [], worker := .exited }, .nothing)
  | .exited => none

namespace Pipeline

/-- Pass a notice on. The slot keeps the first failure. -/
def post (s : Pipeline κ ω) : Notice → Pipeline κ ω
  | .nothing => s
  | .failure failure => { s with failure := s.failure.or (some failure) }
  | .cancel => { s with cancelled := true }

/-- The next step of the worker of a lane. -/
def workerStep? [BlockCompressor κ] (s : Pipeline κ ω) (i : Nat) : Option (Pipeline κ ω) :=
  match s.lanes[i]? with
  | none => none
  | some lane =>
    match lane.step? s.settings.queueSize s.cancelled with
    | none => none
    | some (lane, notice) => some ({ s with lanes := s.lanes.set i lane }.post notice)

/-! ## The sequencer -/

/-- Go on with another phase of the sequencer. -/
def sequence (s : Pipeline κ ω) (phase : SequencerPhase) : Pipeline κ ω :=
  { s with sequencer := { s.sequencer with phase := phase } }

/-- Begin to write an entry: a block goes into checksum and length, the end of a member writes and
    clears them. -/
def beginWriting (s : Pipeline κ ω) : Rendered → Pipeline κ ω
  | .block _ compressed =>
    { s with sequencer := { s.sequencer with
        phase := .writing compressed.data false
        crc := Crc32.combine s.sequencer.crc compressed.crc compressed.length
        size := s.sequencer.size + compressed.length } }
  | .memberEnd next =>
    { s with sequencer := { s.sequencer with
        phase := .writing (Frame.memberEnd s.sequencer.crc s.sequencer.size next) true
        crc := 0
        size := 0 } }

/-- What becomes of a sequencer whose sink panicked. -/
def sinkPanicked (s : Pipeline κ ω) : Pipeline κ ω :=
  { s with sequencer := { s.sequencer with
      phase := .recording (panicOf "sequencer"), panicked := true } }

/-- Offer what is left of an entry to the sink. -/
def writeRest [Sink ω] (s : Pipeline κ ω) (rest : Bytes) (thenFlush : Bool) : Pipeline κ ω :=
  match s with
  | ⟨settings, lanes, sequencer, sink, sequenced, cancelled, failure, owner⟩ =>
    let on (sink : ω) : Pipeline κ ω :=
      ⟨settings, lanes, sequencer, sink, sequenced, cancelled, failure, owner⟩
    match Sink.write sink rest with
    | (.wrote 0, sink) => (on sink).sequence (.recording (.ofIo Sink.nothingTaken))
    | (.wrote (n + 1), sink) => (on sink).sequence (.writing (rest.drop (n + 1)) thenFlush)
    | (.interrupted _, sink) => on sink
    | (.failed cause, sink) => (on sink).sequence (.recording (.ofIo cause))
    | (.panicked, sink) => (on sink).sinkPanicked

/-- The next step of the sequencer, which waits while the queue of the lane whose turn it is is
    empty. -/
def sequencerStep? [Sink ω] (s : Pipeline κ ω) : Option (Pipeline κ ω) :=
  match s.sequencer.phase with
  | .receiving =>
    let turn := s.sequencer.index % s.lanes.length
    match s.lanes[turn]? with
    | none => none
    | some lane =>
      match lane.outbox with
      | rendered :: rest =>
        some ({ s with lanes := s.lanes.set turn { lane with outbox := rest } }.sequence
          (.received rendered))
      | [] => if lane.worker.holdsOutput then none else some (s.sequence (.closing 0))
  | .received rendered =>
    if s.cancelled then some (s.sequence (.closing 0)) else some (s.beginWriting rendered)
  | .writing rest thenFlush =>
    if rest = [] then some (s.sequence (if thenFlush then .flushing else .advancing))
    else some (s.writeRest rest thenFlush)
  | .flushing =>
    match Sink.flush s.sink with
    | (.done, sink) => some ({ s with sink := sink }.sequence .advancing)
    | (.failed cause, sink) =>
      some ({ s with sink := sink }.sequence (.recording (.ofIo cause)))
    | (.panicked, sink) => some ({ s with sink := sink }.sinkPanicked)
  | .advancing =>
    some { s with
      sequenced := s.sequencer.index + 1
      sequencer := { s.sequencer with phase := .receiving, index := s.sequencer.index + 1 } }
  | .recording failure => some ((s.post (.failure failure)).sequence .cancelling)
  | .cancelling => some ((s.post .cancel).sequence (.closing 0))
  | .closing i =>
    match s.lanes[i]? with
    | none => some (s.sequence .exited)
    | some lane =>
      some ({ s with
        lanes := s.lanes.set i { lane with outbox := [], sequencerAttached := false } }.sequence
          (.closing (i + 1)))
  | .exited => none

/-! ## The owner -/

/-- Go on with another phase of the owner. -/
def own (s : Pipeline κ ω) (phase : OwnerPhase) : Pipeline κ ω :=
  { s with owner := { s.owner with phase := phase } }

/-- What sending an entry to the lane whose turn it is comes to. -/
inductive Sending (κ ω : Type)
  | sent (s : Pipeline κ ω)
  /-- The queue is full. -/
  | blocked
  /-- The worker is gone. -/
  | refused

/-- Send an entry to the lane whose turn it is. -/
def send (s : Pipeline κ ω) (entry : Entry) : Sending κ ω :=
  let turn := s.owner.submitted % s.lanes.length
  match s.lanes[turn]? with
  | none => .refused
  | some lane =>
    if !lane.worker.holdsInput then .refused
    else if lane.inbox.length < s.settings.queueSize then
      .sent { s with
        lanes := s.lanes.set turn { lane with inbox := lane.inbox ++ [entry] }
        owner := { s.owner with submitted := s.owner.submitted + 1 } }
    else .blocked

/-- Account for a block that has been sent; `rest` is still to be submitted. -/
def accept (s : Pipeline κ ω) (block rest : Bytes) (total : Nat) : Pipeline κ ω :=
  { s with owner := { s.owner with
      phase := if rest = [] then .ready (.ok total) else .submitting rest total
      previous := block
      blocks := s.owner.blocks + 1
      accepted := s.owner.accepted + block.length } }

/-- The result of a call that stopped the writer, when everybody is gone. -/
def closingResult (s : Pipeline κ ω) (failed : Bool) : Except Error Nat :=
  match s.failure with
  | some failure => .error failure
  | none =>
    if failed then .error (.thread "compression pipeline stopped unexpectedly")
    else if s.sequencer.panicked then
      .error (.thread "sequencer exited without returning the sink")
    else .ok 0

/-- The next step of the owner, which waits while a queue is full, for an entry to be done, and for
    the other parties to exit. -/
def ownerStep? (s : Pipeline κ ω) : Option (Pipeline κ ω) :=
  match s.owner.phase with
  | .ready _ => none
  | .checking call =>
    -- the slot is looked at once; what goes wrong later is met when sending or waiting
    if s.failure.isSome then some (s.own .cancelling)
    else
      match call with
      | .submit data =>
        some (s.own (if data = [] then .ready (.ok 0) else .submitting data data.length))
      | .flush => some (s.own (.ending (some s.settings.level)))
      | .close => some (s.own (.ending none))
  | .submitting rest total =>
    let block := rest.take s.settings.blockSize
    let later := rest.drop s.settings.blockSize
    match s.send (.block s.owner.blocks block (windowOf s.owner.previous)) with
    | .sent s => some (s.accept block later total)
    | .blocked => none
    | .refused => some (s.own .cancelling)
  | .ending next =>
    match s.send (.memberEnd next) with
    | .sent s =>
      some { s with owner := { s.owner with
        phase := .waiting s.owner.submitted next.isNone, previous := [] } }
    | .blocked => none
    | .refused => some (s.own .cancelling)
  | .waiting target last =>
    -- an end that is done counts, even if something has gone wrong behind it
    if target ≤ s.sequenced then
      if last then
        some { s with owner := { s.owner with phase := .closing 0 false, closed := true } }
      else some (s.own (.ready (.ok 0)))
    else if s.cancelled then some (s.own .cancelling)
    else none
  | .cancelling =>
    some { s with
      cancelled := true
      owner := { s.owner with phase := .closing 0 true, closed := true } }
  | .closing i failed =>
    match s.lanes[i]? with
    | none => some (s.own (.joining 0 failed))
    | some lane =>
      some ({ s with lanes := s.lanes.set i { lane with ownerAttached := false } }.own
        (.closing (i + 1) failed))
  | .joining i failed =>
    match s.lanes[i]? with
    | none => some (s.own (.joiningSequencer failed))
    | some lane =>
      if lane.worker.holdsInput then none else some (s.own (.joining (i + 1) failed))
  | .joiningSequencer failed =>
    match s.sequencer.phase with
    | .exited => some (s.own (.reporting failed))
    | _ => none
  | .reporting failed =>
    some { s with
      failure := none
      owner := { s.owner with phase := .ready (s.closingResult failed) } }

/-! ## Everybody -/

/-- The parties of a writer. -/
inductive Party
  | owner
  | worker (lane : Nat)
  | sequencer
  deriving DecidableEq, Repr

/-- The next step of a party, unless it has to wait or is gone. -/
def step? [BlockCompressor κ] [Sink ω] (s : Pipeline κ ω) : Party → Option (Pipeline κ ω)
  | .owner => s.ownerStep?
  | .worker i => s.workerStep? i
  | .sequencer => s.sequencerStep?

/-- Begin a call. A closed writer refuses everything but being closed again. -/
def begin (s : Pipeline κ ω) (call : Call) : Pipeline κ ω :=
  if s.owner.closed then
    match call with
    | .close => s.own (.ready (.ok 0))
    | _ => s.own (.ready (.error .closed))
  else s.own (.checking call)

end Pipeline

end ParallelGzip
