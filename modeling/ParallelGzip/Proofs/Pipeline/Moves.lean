import ParallelGzip.Pipeline.Step

set_option autoImplicit false

/-! # Moves: everything a party can do in one step

For each party there is a relation with one constructor for each thing that a step of it can do,
guards included, and a lemma that says that every step is one of these. What a whole run preserves
is shown by cases on moves; the step functions are not opened again. -/

namespace ParallelGzip

variable {κ ω : Type}

/-! ## What can go wrong -/

/-- Something that goes wrong in a party other than the owner. -/
inductive Mishap
  /-- A compressor returned an error on the block with this number. -/
  | blockFailed (number : Nat) (cause : CodecError)
  /-- A compressor panicked on the block with this number. -/
  | blockPanicked (number : Nat)
  /-- The sink returned an error, or took nothing, under the entry with this index. -/
  | sinkFailed (index : Nat) (cause : IoError)
  /-- The sink panicked under the entry with this index. -/
  | sinkPanicked (index : Nat)
  deriving DecidableEq

/-- The failure that reports a mishap. -/
def Mishap.failure : Mishap → Error
  | blockFailed number cause => cause.inBlock number
  | blockPanicked _ => panicOf "compress worker"
  | sinkFailed _ cause => .ofIo cause
  | sinkPanicked _ => panicOf "sequencer"

/-- Whether the sink panicked. -/
def Mishap.isSinkPanic : Mishap → Bool
  | sinkPanicked _ => true
  | _ => false

/-- The number of the block that a compressor failed on. -/
def Mishap.number? : Mishap → Option Nat
  | blockFailed number _ | blockPanicked number => some number
  | _ => none

/-- What goes wrong in the next step of a worker. -/
def Lane.mishap? [BlockCompressor κ] (lane : Lane κ) : Option Mishap :=
  match lane.worker with
  | .compressing number data dictionary =>
    match (BlockCompressor.compress lane.compressor data dictionary).1 with
    | .block _ => none
    | .failed cause => some (.blockFailed number cause)
    | .panicked => some (.blockPanicked number)
  | _ => none

namespace Pipeline

/-- What goes wrong in the next step of the sequencer. -/
def sinkMishap? [Sink ω] (s : Pipeline κ ω) : Option Mishap :=
  match s.sequencer.phase with
  | .writing rest _ =>
    if rest = [] then none
    else
      match (Sink.write s.sink rest).1 with
      | .wrote 0 => some (.sinkFailed s.sequencer.index Sink.nothingTaken)
      | .failed cause => some (.sinkFailed s.sequencer.index cause)
      | .panicked => some (.sinkPanicked s.sequencer.index)
      | _ => none
  | .flushing =>
    match (Sink.flush s.sink).1 with
    | .done => none
    | .failed cause => some (.sinkFailed s.sequencer.index cause)
    | .panicked => some (.sinkPanicked s.sequencer.index)
  | _ => none

theorem number?_of_sinkMishap? [Sink ω] {s : Pipeline κ ω} {mishap : Mishap}
    (h : s.sinkMishap? = some mishap) : mishap.number? = none := by
  unfold sinkMishap? at h
  repeat' split at h
  all_goals cases h
  all_goals rfl

/-- The sink behind the next request of the sequencer. -/
def nextSink [Sink ω] (s : Pipeline κ ω) : ω :=
  match s.sequencer.phase with
  | .writing rest _ => (Sink.write s.sink rest).2
  | .flushing => (Sink.flush s.sink).2
  | _ => s.sink

end Pipeline

/-! ## Workers -/

/-- Why a worker stops although nothing failed on its lane: there is nothing left to do, everybody
    has been told to stop, or nobody takes what it has made. -/
inductive Lane.Quits (lane : Lane κ) (cancelled : Bool) : Prop
  | drained (worker : lane.worker = .receiving) (inbox : lane.inbox = [])
      (owner : lane.ownerAttached = false)
  | told (entry : Entry) (worker : lane.worker = .received entry) (cancelled : cancelled = true)
  | refused (rendered : Rendered) (worker : lane.worker = .sending rendered)
      (sequencer : lane.sequencerAttached = false)

/-- What a worker can do in one step. -/
inductive Lane.Move [BlockCompressor κ] (lane : Lane κ) (queueSize : Nat) (cancelled : Bool) :
    Lane κ → Notice → Prop
  | receive {entry : Entry} {rest : List Entry} (worker : lane.worker = .receiving)
      (inbox : lane.inbox = entry :: rest) :
      Move lane queueSize cancelled { lane with inbox := rest, worker := .received entry } .nothing
  | quit (quits : lane.Quits cancelled) :
      Move lane queueSize cancelled { lane with worker := .closingOutput } .nothing
  | take {number : Nat} {data dictionary : Bytes}
      (worker : lane.worker = .received (.block number data dictionary))
      (going : cancelled = false) :
      Move lane queueSize cancelled
        { lane with worker := .compressing number data dictionary } .nothing
  | pass {next : Option Nat} (worker : lane.worker = .received (.memberEnd next))
      (going : cancelled = false) :
      Move lane queueSize cancelled { lane with worker := .sending (.memberEnd next) } .nothing
  | compress {number : Nat} {data dictionary : Bytes} {compressed : CompressedBlock} {after : κ}
      (worker : lane.worker = .compressing number data dictionary)
      (result : BlockCompressor.compress lane.compressor data dictionary
        = (.block compressed, after)) :
      Move lane queueSize cancelled
        { lane with compressor := after, worker := .sending (.block number compressed) } .nothing
  | fail {mishap : Mishap} {after : κ} (mishap? : lane.mishap? = some mishap) :
      Move lane queueSize cancelled
        { lane with compressor := after, worker := .recording mishap.failure } .nothing
  | send {rendered : Rendered} (worker : lane.worker = .sending rendered)
      (sequencer : lane.sequencerAttached = true) (room : lane.outbox.length < queueSize) :
      Move lane queueSize cancelled
        { lane with outbox := lane.outbox ++ [rendered], worker := .receiving } .nothing
  | record {failure : Error} (worker : lane.worker = .recording failure) :
      Move lane queueSize cancelled { lane with worker := .cancelling } (.failure failure)
  | cancel (worker : lane.worker = .cancelling) :
      Move lane queueSize cancelled { lane with worker := .closingOutput } .cancel
  | closeOutput (worker : lane.worker = .closingOutput) :
      Move lane queueSize cancelled { lane with worker := .closingInput } .nothing
  | closeInput (worker : lane.worker = .closingInput) :
      Move lane queueSize cancelled { lane with inbox := [], worker := .exited } .nothing

theorem Lane.move_of_step? [BlockCompressor κ] {lane lane' : Lane κ} {queueSize : Nat}
    {cancelled : Bool} {notice : Notice}
    (h : lane.step? queueSize cancelled = some (lane', notice)) :
    lane.Move queueSize cancelled lane' notice := by
  unfold step? at h
  split at h
  · next hw =>
    split at h
    · next hi =>
      cases h
      exact .receive hw hi
    · next hi =>
      split at h
      · cases h
      · next ho =>
        cases h
        exact .quit (.drained hw hi (by simpa using ho))
  · next entry hw =>
    split at h
    · next hc =>
      cases h
      exact .quit (.told entry hw hc)
    · next hc =>
      split at h
      · cases h
        exact .take hw (by simpa using hc)
      · cases h
        exact .pass hw (by simpa using hc)
  · next number data dictionary hw =>
    split at h
    · next hk =>
      cases h
      exact .compress hw hk
    · next cause after hk =>
      cases h
      have failed : lane.mishap? = some (.blockFailed number cause) := by
        simp only [mishap?, hw, hk]
      exact .fail failed
    · next after hk =>
      cases h
      have panicked : lane.mishap? = some (.blockPanicked number) := by
        simp only [mishap?, hw, hk]
      exact .fail panicked
  · next rendered hw =>
    split at h
    · next ha =>
      cases h
      exact .quit (.refused rendered hw (by simpa using ha))
    · next ha =>
      split at h
      · next hlt =>
        cases h
        exact .send hw (by simpa using ha) hlt
      · cases h
  · next hw =>
    cases h
    exact .record hw
  · next hw =>
    cases h
    exact .cancel hw
  · next hw =>
    cases h
    exact .closeOutput hw
  · next hw =>
    cases h
    exact .closeInput hw
  · cases h

namespace Pipeline

/-- A step of a worker is a move on its lane, and a notice to everybody. -/
theorem move_of_workerStep? [BlockCompressor κ] {s s' : Pipeline κ ω} {i : Nat}
    (h : s.workerStep? i = some s') :
    ∃ lane lane' notice, s.lanes[i]? = some lane ∧
      lane.Move s.settings.queueSize s.cancelled lane' notice ∧
      s' = { s with lanes := s.lanes.set i lane' }.post notice := by
  unfold workerStep? at h
  split at h
  · cases h
  · next lane hlane =>
    split at h
    · cases h
    · next lane' notice hstep =>
      cases h
      exact ⟨lane, lane', notice, hlane, Lane.move_of_step? hstep, rfl⟩

/-! ## The sequencer -/

/-- The lane the sequencer takes the next entry from. -/
def sequencerTurn (s : Pipeline κ ω) : Nat := s.sequencer.index % s.lanes.length

/-- Why the sequencer stops although the sink did not fail: the worker whose turn it is is gone, or
    everybody has been told to stop. -/
inductive SequencerLeaves (s : Pipeline κ ω) : Prop
  | abandoned (lane : Lane κ) (phase : s.sequencer.phase = .receiving)
      (turn : s.lanes[s.sequencerTurn]? = some lane) (outbox : lane.outbox = [])
      (worker : lane.worker.holdsOutput = false)
  | told (rendered : Rendered) (phase : s.sequencer.phase = .received rendered)
      (cancelled : s.cancelled = true)

/-- What the sequencer can do in one step. -/
inductive SequencerMove [Sink ω] (s : Pipeline κ ω) : Pipeline κ ω → Prop
  | receive {lane : Lane κ} {rendered : Rendered} {rest : List Rendered}
      (phase : s.sequencer.phase = .receiving) (turn : s.lanes[s.sequencerTurn]? = some lane)
      (outbox : lane.outbox = rendered :: rest) :
      SequencerMove s { s with
        lanes := s.lanes.set s.sequencerTurn { lane with outbox := rest }
        sequencer := { s.sequencer with phase := .received rendered } }
  | leave (leaves : s.SequencerLeaves) :
      SequencerMove s { s with sequencer := { s.sequencer with phase := .closing 0 } }
  | start {rendered : Rendered} (phase : s.sequencer.phase = .received rendered)
      (going : s.cancelled = false) : SequencerMove s (s.beginWriting rendered)
  | finish {thenFlush : Bool} (phase : s.sequencer.phase = .writing [] thenFlush) :
      SequencerMove s { s with sequencer := { s.sequencer with
        phase := if thenFlush then .flushing else .advancing } }
  | write {rest : Bytes} {thenFlush : Bool} {n : Nat} {sink : ω}
      (phase : s.sequencer.phase = .writing rest thenFlush) (nonempty : rest ≠ [])
      (result : Sink.write s.sink rest = (.wrote (n + 1), sink)) :
      SequencerMove s { s with
        sink := sink
        sequencer := { s.sequencer with phase := .writing (rest.drop (n + 1)) thenFlush } }
  | interrupted {rest : Bytes} {thenFlush : Bool} {cause : IoError} {sink : ω}
      (phase : s.sequencer.phase = .writing rest thenFlush) (nonempty : rest ≠ [])
      (result : Sink.write s.sink rest = (.interrupted cause, sink)) :
      SequencerMove s { s with sink := sink }
  | flush {sink : ω} (phase : s.sequencer.phase = .flushing)
      (result : Sink.flush s.sink = (.done, sink)) :
      SequencerMove s { s with
        sink := sink
        sequencer := { s.sequencer with phase := .advancing } }
  | fail {mishap : Mishap} (mishap? : s.sinkMishap? = some mishap) :
      SequencerMove s { s with
        sink := s.nextSink
        sequencer := { s.sequencer with
          phase := .recording mishap.failure
          panicked := s.sequencer.panicked || mishap.isSinkPanic } }
  | advance (phase : s.sequencer.phase = .advancing) :
      SequencerMove s { s with
        sequenced := s.sequencer.index + 1
        sequencer := { s.sequencer with phase := .receiving, index := s.sequencer.index + 1 } }
  | record {failure : Error} (phase : s.sequencer.phase = .recording failure) :
      SequencerMove s { s with
        failure := s.failure.or (some failure)
        sequencer := { s.sequencer with phase := .cancelling } }
  | cancel (phase : s.sequencer.phase = .cancelling) :
      SequencerMove s { s with
        cancelled := true
        sequencer := { s.sequencer with phase := .closing 0 } }
  | closeLane {i : Nat} {lane : Lane κ} (phase : s.sequencer.phase = .closing i)
      (lane? : s.lanes[i]? = some lane) :
      SequencerMove s { s with
        lanes := s.lanes.set i { lane with outbox := [], sequencerAttached := false }
        sequencer := { s.sequencer with phase := .closing (i + 1) } }
  | exit {i : Nat} (phase : s.sequencer.phase = .closing i) (lane? : s.lanes[i]? = none) :
      SequencerMove s { s with sequencer := { s.sequencer with phase := .exited } }

theorem SequencerMove.of_sinkFailed [Sink ω] {s : Pipeline κ ω} {cause : IoError} {sink : ω}
    (mishap? : s.sinkMishap? = some (.sinkFailed s.sequencer.index cause))
    (next : s.nextSink = sink) :
    s.SequencerMove ({ s with sink := sink }.sequence (.recording (.ofIo cause))) := by
  have move := SequencerMove.fail mishap?
  simp only [next, Mishap.failure, Mishap.isSinkPanic, Bool.or_false] at move
  exact move

theorem SequencerMove.of_sinkPanicked [Sink ω] {s : Pipeline κ ω} {sink : ω}
    (mishap? : s.sinkMishap? = some (.sinkPanicked s.sequencer.index))
    (next : s.nextSink = sink) : s.SequencerMove { s with sink := sink }.sinkPanicked := by
  have move := SequencerMove.fail mishap?
  simp only [next, Mishap.failure, Mishap.isSinkPanic, Bool.or_true] at move
  exact move

theorem move_of_writeRest [Sink ω] {s : Pipeline κ ω} {rest : Bytes} {thenFlush : Bool}
    (phase : s.sequencer.phase = .writing rest thenFlush) (nonempty : rest ≠ []) :
    s.SequencerMove (s.writeRest rest thenFlush) := by
  have next : s.nextSink = (Sink.write s.sink rest).2 := by simp only [nextSink, phase]
  rw [writeRest]
  dsimp only
  split
  · next result =>
    rw [result] at next
    exact .of_sinkFailed (by simp only [sinkMishap?, phase, nonempty, result, if_false]) next
  · next result => exact .write phase nonempty result
  · next result => exact .interrupted phase nonempty result
  · next result =>
    rw [result] at next
    exact .of_sinkFailed (by simp only [sinkMishap?, phase, nonempty, result, if_false]) next
  · next result =>
    rw [result] at next
    exact .of_sinkPanicked (by simp only [sinkMishap?, phase, nonempty, result, if_false]) next

theorem move_of_sequencerStep? [Sink ω] {s s' : Pipeline κ ω} (h : s.sequencerStep? = some s') :
    s.SequencerMove s' := by
  unfold sequencerStep? at h
  split at h
  · next phase =>
    dsimp only at h
    split at h
    · cases h
    · next lane turn =>
      split at h
      · next outbox =>
        cases h
        exact .receive phase turn outbox
      · next outbox =>
        split at h
        · cases h
        · next worker =>
          cases h
          exact .leave (.abandoned lane phase turn outbox (by simpa using worker))
  · next rendered phase =>
    split at h
    · next cancelled =>
      cases h
      exact .leave (.told rendered phase cancelled)
    · next going =>
      cases h
      exact .start phase (by simpa using going)
  · next rest thenFlush phase =>
    split at h
    · next empty =>
      cases h
      subst empty
      exact .finish phase
    · next nonempty =>
      cases h
      exact move_of_writeRest phase nonempty
  · next phase =>
    have next : s.nextSink = (Sink.flush s.sink).2 := by simp only [nextSink, phase]
    split at h
    · next result =>
      cases h
      exact .flush phase result
    · next result =>
      cases h
      rw [result] at next
      exact .of_sinkFailed (by simp only [sinkMishap?, phase, result]) next
    · next result =>
      cases h
      rw [result] at next
      exact .of_sinkPanicked (by simp only [sinkMishap?, phase, result]) next
  · next phase =>
    cases h
    exact .advance phase
  · next phase =>
    cases h
    exact .record phase
  · next phase =>
    cases h
    exact .cancel phase
  · next phase =>
    split at h
    · next lane? =>
      cases h
      exact .exit phase lane?
    · next lane? =>
      cases h
      exact .closeLane phase lane?
  · cases h

/-! ## The owner -/

/-- The lane the owner puts the next entry into. -/
def ownerTurn (s : Pipeline κ ω) : Nat := s.owner.submitted % s.lanes.length

/-- The entry that the owner is about to submit. -/
def submission? (s : Pipeline κ ω) : Option Entry :=
  match s.owner.phase with
  | .submitting rest _ =>
    some (.block s.owner.blocks (rest.take s.settings.blockSize) (windowOf s.owner.previous))
  | .ending next => some (.memberEnd next)
  | _ => none

/-- The owner behind the submission of an entry. -/
def ownerAfterSending (s : Pipeline κ ω) : Owner :=
  match s.owner.phase with
  | .submitting rest total =>
    { s.owner with
      phase :=
        if rest.drop s.settings.blockSize = [] then .ready (.ok total)
        else .submitting (rest.drop s.settings.blockSize) total
      submitted := s.owner.submitted + 1
      previous := rest.take s.settings.blockSize
      blocks := s.owner.blocks + 1
      accepted := s.owner.accepted + (rest.take s.settings.blockSize).length }
  | .ending next =>
    { s.owner with
      phase := .waiting (s.owner.submitted + 1) next.isNone
      submitted := s.owner.submitted + 1
      previous := [] }
  | _ => s.owner

/-- Why the owner gives up: a failure has been left, the worker whose turn it is is gone, or
    everybody has been told to stop before the awaited entry was done. -/
inductive OwnerGivesUp (s : Pipeline κ ω) : Prop
  | raised (call : Call) (phase : s.owner.phase = .checking call)
      (failure : s.failure.isSome = true)
  | refused (entry : Entry) (submission? : s.submission? = some entry)
      (lane : ∀ lane, s.lanes[s.ownerTurn]? = some lane → lane.worker.holdsInput = false)
  | told (target : Nat) (last : Bool) (phase : s.owner.phase = .waiting target last)
      (undone : s.sequenced < target) (cancelled : s.cancelled = true)

/-- What the owner can do in one step. -/
inductive OwnerMove (s : Pipeline κ ω) : Pipeline κ ω → Prop
  | giveUp (givesUp : s.OwnerGivesUp) :
      OwnerMove s { s with owner := { s.owner with phase := .cancelling } }
  | submitNothing (phase : s.owner.phase = .checking (.submit [])) (clear : s.failure = none) :
      OwnerMove s { s with owner := { s.owner with phase := .ready (.ok 0) } }
  | beginSubmit {data : Bytes} (phase : s.owner.phase = .checking (.submit data))
      (nonempty : data ≠ []) (clear : s.failure = none) :
      OwnerMove s { s with owner := { s.owner with phase := .submitting data data.length } }
  | beginFlush (phase : s.owner.phase = .checking .flush) (clear : s.failure = none) :
      OwnerMove s { s with owner := { s.owner with phase := .ending (some s.settings.level) } }
  | beginClose (phase : s.owner.phase = .checking .close) (clear : s.failure = none) :
      OwnerMove s { s with owner := { s.owner with phase := .ending none } }
  | send {entry : Entry} {lane : Lane κ} (submission? : s.submission? = some entry)
      (turn : s.lanes[s.ownerTurn]? = some lane) (worker : lane.worker.holdsInput = true)
      (room : lane.inbox.length < s.settings.queueSize) :
      OwnerMove s { s with
        lanes := s.lanes.set s.ownerTurn { lane with inbox := lane.inbox ++ [entry] }
        owner := s.ownerAfterSending }
  | finishFlush {target : Nat} (phase : s.owner.phase = .waiting target false)
      (done : target ≤ s.sequenced) :
      OwnerMove s { s with owner := { s.owner with phase := .ready (.ok 0) } }
  | finishClose {target : Nat} (phase : s.owner.phase = .waiting target true)
      (done : target ≤ s.sequenced) :
      OwnerMove s { s with owner := { s.owner with phase := .closing 0 false, closed := true } }
  | cancel (phase : s.owner.phase = .cancelling) :
      OwnerMove s { s with
        cancelled := true
        owner := { s.owner with phase := .closing 0 true, closed := true } }
  | closeLane {i : Nat} {failed : Bool} {lane : Lane κ} (phase : s.owner.phase = .closing i failed)
      (lane? : s.lanes[i]? = some lane) :
      OwnerMove s { s with
        lanes := s.lanes.set i { lane with ownerAttached := false }
        owner := { s.owner with phase := .closing (i + 1) failed } }
  | closed {i : Nat} {failed : Bool} (phase : s.owner.phase = .closing i failed)
      (lane? : s.lanes[i]? = none) :
      OwnerMove s { s with owner := { s.owner with phase := .joining 0 failed } }
  | join {i : Nat} {failed : Bool} {lane : Lane κ} (phase : s.owner.phase = .joining i failed)
      (lane? : s.lanes[i]? = some lane) (worker : lane.worker.holdsInput = false) :
      OwnerMove s { s with owner := { s.owner with phase := .joining (i + 1) failed } }
  | joined {i : Nat} {failed : Bool} (phase : s.owner.phase = .joining i failed)
      (lane? : s.lanes[i]? = none) :
      OwnerMove s { s with owner := { s.owner with phase := .joiningSequencer failed } }
  | joinSequencer {failed : Bool} (phase : s.owner.phase = .joiningSequencer failed)
      (sequencer : s.sequencer.phase = .exited) :
      OwnerMove s { s with owner := { s.owner with phase := .reporting failed } }
  | report {failed : Bool} (phase : s.owner.phase = .reporting failed) :
      OwnerMove s { s with
        failure := none
        owner := { s.owner with phase := .ready (s.closingResult failed) } }

/-- Sending puts the entry into the queue of the lane whose turn it is. -/
theorem send_eq_sent {s s' : Pipeline κ ω} {entry : Entry} (h : s.send entry = .sent s') :
    ∃ lane, s.lanes[s.ownerTurn]? = some lane ∧ lane.worker.holdsInput = true ∧
      lane.inbox.length < s.settings.queueSize ∧
      s' = { s with
        lanes := s.lanes.set s.ownerTurn { lane with inbox := lane.inbox ++ [entry] }
        owner := { s.owner with submitted := s.owner.submitted + 1 } } := by
  unfold send at h
  dsimp only at h
  split at h
  · cases h
  · next lane turn =>
    split at h
    · cases h
    · next worker =>
      split at h
      · next room =>
        cases h
        exact ⟨lane, turn, by simpa using worker, room, rfl⟩
      · cases h

/-- Sending is refused by a worker that is gone. -/
theorem send_eq_refused {s : Pipeline κ ω} {entry : Entry} (h : s.send entry = .refused)
    (lane : Lane κ) (turn : s.lanes[s.ownerTurn]? = some lane) :
    lane.worker.holdsInput = false := by
  unfold send at h
  dsimp only at h
  rw [← ownerTurn, turn] at h
  dsimp only at h
  split at h
  · next worker => simpa using worker
  · split at h <;> cases h

theorem move_of_ownerStep? {s s' : Pipeline κ ω} (h : s.ownerStep? = some s') :
    s.OwnerMove s' := by
  unfold ownerStep? at h
  split at h
  · cases h
  · next call phase =>
    split at h
    · next failure =>
      cases h
      exact .giveUp (.raised call phase failure)
    · next failure =>
      have clear : s.failure = none := by simpa using failure
      split at h
      · next data =>
        cases h
        by_cases empty : data = []
        · subst empty
          exact .submitNothing phase clear
        · rw [if_neg empty]
          exact .beginSubmit phase empty clear
      · cases h
        exact .beginFlush phase clear
      · cases h
        exact .beginClose phase clear
  · next rest total phase =>
    have submission? : s.submission? = some (.block s.owner.blocks (rest.take s.settings.blockSize)
        (windowOf s.owner.previous)) := by simp only [submission?, phase]
    dsimp only at h
    split at h
    · next sent =>
      cases h
      obtain ⟨lane, turn, worker, room, rfl⟩ := send_eq_sent sent
      have move := OwnerMove.send submission? turn worker room
      simp only [ownerAfterSending, phase] at move
      exact move
    · cases h
    · next refused =>
      cases h
      exact .giveUp (.refused _ submission? (send_eq_refused refused))
  · next next phase =>
    have submission? : s.submission? = some (.memberEnd next) := by simp only [submission?, phase]
    split at h
    · next sent =>
      cases h
      obtain ⟨lane, turn, worker, room, rfl⟩ := send_eq_sent sent
      have move := OwnerMove.send submission? turn worker room
      simp only [ownerAfterSending, phase] at move
      exact move
    · cases h
    · next refused =>
      cases h
      exact .giveUp (.refused _ submission? (send_eq_refused refused))
  · next target last phase =>
    split at h
    · next done =>
      split at h
      · next isLast =>
        cases h
        subst isLast
        exact .finishClose phase done
      · next notLast =>
        cases h
        obtain rfl : last = false := by simpa using notLast
        exact .finishFlush phase done
    · next undone =>
      split at h
      · next cancelled =>
        cases h
        exact .giveUp (.told target last phase (by omega) cancelled)
      · cases h
  · next phase =>
    cases h
    exact .cancel phase
  · next phase =>
    split at h
    · next lane? =>
      cases h
      exact .closed phase lane?
    · next lane? =>
      cases h
      exact .closeLane phase lane?
  · next phase =>
    split at h
    · next lane? =>
      cases h
      exact .joined phase lane?
    · next lane lane? =>
      split at h
      · cases h
      · next worker =>
        cases h
        exact .join phase lane? (by simpa using worker)
  · next phase =>
    split at h
    · next sequencer =>
      cases h
      exact .joinSequencer phase sequencer
    · cases h
  · next phase =>
    cases h
    exact .report phase

/-! ## What moves leave alone -/

@[simp] theorem post_settings (s : Pipeline κ ω) (notice : Notice) :
    (s.post notice).settings = s.settings := by cases notice <;> rfl

@[simp] theorem post_lanes (s : Pipeline κ ω) (notice : Notice) :
    (s.post notice).lanes = s.lanes := by cases notice <;> rfl

@[simp] theorem post_sequencer (s : Pipeline κ ω) (notice : Notice) :
    (s.post notice).sequencer = s.sequencer := by cases notice <;> rfl

@[simp] theorem post_sink (s : Pipeline κ ω) (notice : Notice) :
    (s.post notice).sink = s.sink := by cases notice <;> rfl

@[simp] theorem post_sequenced (s : Pipeline κ ω) (notice : Notice) :
    (s.post notice).sequenced = s.sequenced := by cases notice <;> rfl

@[simp] theorem post_owner (s : Pipeline κ ω) (notice : Notice) :
    (s.post notice).owner = s.owner := by cases notice <;> rfl

/-- A worker touches nothing but its lane, the slot and the flag. -/
structure WorkerFrame (s s' : Pipeline κ ω) : Prop where
  settings : s'.settings = s.settings
  sequencer : s'.sequencer = s.sequencer
  sink : s'.sink = s.sink
  sequenced : s'.sequenced = s.sequenced
  owner : s'.owner = s.owner

theorem frame_of_workerStep? [BlockCompressor κ] {s s' : Pipeline κ ω} {i : Nat}
    (h : s.workerStep? i = some s') : s.WorkerFrame s' := by
  obtain ⟨lane, lane', notice, -, -, rfl⟩ := move_of_workerStep? h
  exact ⟨post_settings .., post_sequencer .., post_sink .., post_sequenced .., post_owner ..⟩

theorem beginWriting_frame (s : Pipeline κ ω) (rendered : Rendered) :
    (s.beginWriting rendered).settings = s.settings ∧
      (s.beginWriting rendered).lanes = s.lanes ∧ (s.beginWriting rendered).owner = s.owner ∧
      (s.beginWriting rendered).sequencer.index = s.sequencer.index := by
  cases rendered <;> exact ⟨rfl, rfl, rfl, rfl⟩

/-- The sequencer leaves the owner alone. -/
theorem SequencerMove.frame [Sink ω] {s s' : Pipeline κ ω} (move : s.SequencerMove s') :
    s'.settings = s.settings ∧ s'.owner = s.owner := by
  cases move with
  | @start rendered =>
    obtain ⟨settings, -, owner, -⟩ := s.beginWriting_frame rendered
    exact ⟨settings, owner⟩
  | _ => exact ⟨rfl, rfl⟩

/-- The owner leaves the sequencer and its sink alone. -/
theorem OwnerMove.frame {s s' : Pipeline κ ω} (move : s.OwnerMove s') :
    s'.settings = s.settings ∧ s'.sequencer = s.sequencer ∧ s'.sink = s.sink ∧
      s'.sequenced = s.sequenced := by
  cases move <;> exact ⟨rfl, rfl, rfl, rfl⟩

/-- A call that closes a writer goes well if no failure is in the slot, the owner knows of none, and
    the sequencer has left in order. -/
theorem closingResult_eq_ok_iff {s : Pipeline κ ω} {failed : Bool} {n : Nat} :
    s.closingResult failed = .ok n ↔
      s.failure = none ∧ failed = false ∧ s.sequencer.panicked = false ∧ n = 0 := by
  rw [closingResult]
  cases s.failure <;> cases failed <;> cases s.sequencer.panicked <;> simp [eq_comm]

theorem ownerAfterSending_submitted {s : Pipeline κ ω} {entry : Entry}
    (h : s.submission? = some entry) :
    s.ownerAfterSending.submitted = s.owner.submitted + 1 := by
  unfold submission? at h
  unfold ownerAfterSending
  split at h
  · next phase => simp only
  · next phase => simp only
  · cases h

/-- Behind a block the owner returns or goes on submitting, behind the end of a member it waits. -/
theorem phase_ownerAfterSending {s : Pipeline κ ω} {entry : Entry}
    (h : s.submission? = some entry) :
    (∃ rest total, s.owner.phase = .submitting rest total ∧
        (s.ownerAfterSending.phase = .ready (.ok total) ∨
          ∃ later, s.ownerAfterSending.phase = .submitting later total)) ∨
      ∃ next, s.owner.phase = .ending next ∧
        s.ownerAfterSending.phase = .waiting (s.owner.submitted + 1) next.isNone := by
  unfold submission? at h
  unfold ownerAfterSending
  split at h
  · next rest total phase =>
    refine .inl ⟨rest, total, phase, ?_⟩
    by_cases last : rest.drop s.settings.blockSize = []
    · exact .inl (if_pos last)
    · exact .inr ⟨_, if_neg last⟩
  · next next phase => exact .inr ⟨next, phase, rfl⟩
  · cases h

/-- What a move of the owner does to the lanes: nothing, or it puts an entry into a queue, or it
    lets go of a queue. -/
inductive OwnerTouches (s s' : Pipeline κ ω) : Prop
  | nothing (lanes : s'.lanes = s.lanes) (submitted : s'.owner.submitted = s.owner.submitted)
  | sent (entry : Entry) (lane : Lane κ) (submission? : s.submission? = some entry)
      (turn : s.lanes[s.ownerTurn]? = some lane) (worker : lane.worker.holdsInput = true)
      (lanes : s'.lanes = s.lanes.set s.ownerTurn { lane with inbox := lane.inbox ++ [entry] })
      (submitted : s'.owner.submitted = s.owner.submitted + 1)
  | detached (i : Nat) (lane : Lane κ) (lane? : s.lanes[i]? = some lane)
      (lanes : s'.lanes = s.lanes.set i { lane with ownerAttached := false })
      (submitted : s'.owner.submitted = s.owner.submitted)

theorem OwnerMove.touches {s s' : Pipeline κ ω} (move : s.OwnerMove s') : s.OwnerTouches s' := by
  cases move with
  | send submission? turn worker room =>
    exact .sent _ _ submission? turn worker rfl (ownerAfterSending_submitted submission?)
  | closeLane phase lane? => exact .detached _ _ lane? rfl rfl
  | _ => exact .nothing rfl rfl

/-- What a move of the sequencer does to the lanes: nothing, or it takes an entry, or it lets go of
    a queue. -/
inductive SequencerTouches (s s' : Pipeline κ ω) : Prop
  | nothing (lanes : s'.lanes = s.lanes)
      (phase : ∀ rendered, s'.sequencer.phase ≠ .received rendered)
  | took (lane : Lane κ) (rendered : Rendered) (rest : List Rendered)
      (phase : s.sequencer.phase = .receiving) (turn : s.lanes[s.sequencerTurn]? = some lane)
      (outbox : lane.outbox = rendered :: rest)
      (lanes : s'.lanes = s.lanes.set s.sequencerTurn { lane with outbox := rest })
      (next : s'.sequencer.phase = .received rendered)
  | detached (i : Nat) (lane : Lane κ) (lane? : s.lanes[i]? = some lane)
      (lanes : s'.lanes = s.lanes.set i { lane with outbox := [], sequencerAttached := false })
      (phase : ∀ rendered, s'.sequencer.phase ≠ .received rendered)

theorem SequencerMove.touches [Sink ω] {s s' : Pipeline κ ω} (move : s.SequencerMove s') :
    s.SequencerTouches s' := by
  cases move with
  | receive phase turn outbox => exact .took _ _ _ phase turn outbox rfl rfl
  | @start rendered phase =>
    refine .nothing (s.beginWriting_frame rendered).2.1 ?_
    intro _
    cases rendered <;> simp [beginWriting]
  | @finish thenFlush => exact .nothing rfl fun _ => by cases thenFlush <;> simp
  | interrupted phase => exact .nothing rfl fun _ => by simp [phase]
  | closeLane phase lane? => exact .detached _ _ lane? rfl fun _ => by simp
  | _ => exact .nothing rfl fun _ => by simp

/-- A lane of an updated list is the new one, or an old one with another index. -/
theorem getElem?_set_cases {lanes : List (Lane κ)} {i j : Nat} {lane lane' : Lane κ}
    (h : (lanes.set i lane')[j]? = some lane) :
    (j = i ∧ lane = lane') ∨ (j ≠ i ∧ lanes[j]? = some lane) := by
  rw [List.getElem?_set] at h
  by_cases hij : i = j
  · rw [if_pos hij] at h
    split at h
    · cases h
      exact .inl ⟨hij.symm, rfl⟩
    · cases h
  · rw [if_neg hij] at h
    exact .inr ⟨fun hji => hij hji.symm, h⟩

end Pipeline

end ParallelGzip
