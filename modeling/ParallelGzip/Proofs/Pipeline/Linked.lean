import ParallelGzip.Proofs.Pipeline.History

set_option autoImplicit false

/-! # Linked: what the parties of a writer know of each other

`Linked` says which ends of the queues have been let go of, whom the owner has seen exit, and that
nobody leaves an open writer unless everybody has been told to stop. Every step of a party and every
request keeps it; `Run.linked` is the sum of these. -/

namespace ParallelGzip

variable {κ ω : Type}

/-! ## Who is on the way out -/

/-- Whether a worker is on its way out, or gone. -/
def Worker.Leaving : Worker → Prop
  | closingOutput | closingInput | exited => True
  | _ => False

/-- Whether the sequencer is on its way out, or gone. -/
def SequencerPhase.Leaving : SequencerPhase → Prop
  | closing _ | exited => True
  | _ => False

/-- Whether the sequencer has let go of the output queue of a lane. -/
def SequencerPhase.LetGo (lane : Nat) : SequencerPhase → Prop
  | closing i => lane < i
  | exited => True
  | _ => False

theorem SequencerPhase.LetGo.leaving {phase : SequencerPhase} {lane : Nat}
    (letGo : phase.LetGo lane) : phase.Leaving := by
  cases phase with
  | closing | exited => trivial
  | _ => exact letGo.elim

/-- A worker that has let go of its input queue is gone. -/
theorem exited_of_holdsInput {worker : Worker} (h : worker.holdsInput = false) :
    worker = .exited := by
  cases worker with
  | exited => rfl
  | _ => cases h

/-- A worker that has let go of its output queue is on its way out. -/
theorem leaving_of_holdsOutput {worker : Worker} (h : worker.holdsOutput = false) :
    worker.Leaving := by
  cases worker with
  | closingInput | exited => trivial
  | _ => cases h

namespace Owner

/-- How an owner's phase goes with the rest of it: it is closed from when it begins to let go of the
    queues, and what it waits for is the entry it submitted last. -/
def Consistent (o : Owner) : Prop :=
  match o.phase with
  | .ready _ => True
  | .closing _ _ | .joining _ _ | .joiningSequencer _ | .reporting _ => o.closed = true
  | .waiting target _ => o.closed = false ∧ target = o.submitted
  | _ => o.closed = false

/-- Whether the owner has let go of the input queue of a lane. -/
def LetGo (lane : Nat) (o : Owner) : Prop :=
  match o.phase with
  | .closing i _ => lane < i
  | _ => o.closed = true

/-- Whether the owner has seen the worker of a lane exit. -/
def Joined (lane : Nat) (o : Owner) : Prop :=
  match o.phase with
  | .closing _ _ => False
  | .joining i _ => lane < i
  | _ => o.closed = true

/-- Whether the owner has seen the sequencer exit. -/
def JoinedSequencer (o : Owner) : Prop :=
  match o.phase with
  | .closing _ _ | .joining _ _ | .joiningSequencer _ => False
  | _ => o.closed = true

/-- An owner that is not closed has not let go of anything. -/
theorem Consistent.not_letGo {o : Owner} (consistent : o.Consistent) (opened : o.closed = false)
    (lane : Nat) : ¬o.LetGo lane := by
  intro letGo
  unfold LetGo at letGo
  unfold Consistent at consistent
  split at letGo
  · next phase =>
    rw [phase, opened] at consistent
    cases consistent
  · rw [opened] at letGo
    cases letGo

/-- An owner that is not closed has not seen anybody exit. -/
theorem Consistent.not_joined {o : Owner} (consistent : o.Consistent) (opened : o.closed = false)
    (lane : Nat) : ¬o.Joined lane := by
  intro joined
  unfold Joined at joined
  unfold Consistent at consistent
  split at joined
  · exact joined
  · next phase =>
    rw [phase, opened] at consistent
    cases consistent
  · rw [opened] at joined
    cases joined

theorem not_joinedSequencer {o : Owner} (opened : o.closed = false) : ¬o.JoinedSequencer := by
  intro joined
  unfold JoinedSequencer at joined
  split at joined
  · exact joined
  · exact joined
  · exact joined
  · rw [opened] at joined
    cases joined

end Owner

namespace Pipeline

/-- What the parties of a writer know of each other. -/
structure Linked (s : Pipeline κ ω) : Prop where
  owner : s.owner.Consistent
  sequenced : s.sequenced = s.sequencer.index
  ownerAttached : ∀ (i : Nat) (lane : Lane κ), s.lanes[i]? = some lane →
    (lane.ownerAttached = false ↔ s.owner.LetGo i)
  sequencerAttached : ∀ (i : Nat) (lane : Lane κ), s.lanes[i]? = some lane →
    (lane.sequencerAttached = false ↔ s.sequencer.phase.LetGo i)
  joined : ∀ (i : Nat) (lane : Lane κ), s.lanes[i]? = some lane → s.owner.Joined i →
    lane.worker = .exited
  joinedSequencer : s.owner.JoinedSequencer → s.sequencer.phase = .exited
  quiet : s.owner.closed = false → s.cancelled = false →
    (∀ (i : Nat) (lane : Lane κ), s.lanes[i]? = some lane → ¬lane.worker.Leaving) ∧
      ¬s.sequencer.phase.Leaving

namespace Linked

variable {s s' : Pipeline κ ω}

theorem new (settings : Settings) (compressors : List κ) (sink : ω) :
    (Pipeline.new settings compressors sink).Linked where
  owner := trivial
  sequenced := rfl
  ownerAttached := by
    intro i lane hlane
    simp only [Pipeline.new, List.getElem?_map, Option.map_eq_some_iff] at hlane
    obtain ⟨compressor, -, rfl⟩ := hlane
    simp [Lane.new, Pipeline.new, Owner.new, Owner.LetGo]
  sequencerAttached := by
    intro i lane hlane
    simp only [Pipeline.new, List.getElem?_map, Option.map_eq_some_iff] at hlane
    obtain ⟨compressor, -, rfl⟩ := hlane
    simp [Lane.new, Pipeline.new, Sequencer.new, SequencerPhase.LetGo]
  joined := by
    intro i lane hlane hjoined
    simp [Pipeline.new, Owner.new, Owner.Joined] at hjoined
  joinedSequencer := by
    intro hjoined
    simp [Pipeline.new, Owner.new, Owner.JoinedSequencer] at hjoined
  quiet := by
    refine fun _ _ => ⟨?_, id⟩
    intro i lane hlane
    simp only [Pipeline.new, List.getElem?_map, Option.map_eq_some_iff] at hlane
    obtain ⟨compressor, -, rfl⟩ := hlane
    exact id

/-! ## Workers -/

/-- A worker lets go of its own ends only. -/
theorem frame_of_move [BlockCompressor κ] {lane lane' : Lane κ} {queueSize : Nat}
    {cancelled : Bool} {notice : Notice} (move : lane.Move queueSize cancelled lane' notice) :
    lane'.ownerAttached = lane.ownerAttached ∧
      lane'.sequencerAttached = lane.sequencerAttached ∧ lane.worker ≠ .exited := by
  cases move with
  | quit quits => cases quits <;> exact ⟨rfl, rfl, by simp_all⟩
  | fail mishap? =>
    refine ⟨rfl, rfl, ?_⟩
    intro exited
    simp [Lane.mishap?, exited] at mishap?
  | _ => exact ⟨rfl, rfl, by simp_all⟩

/-- A worker leaves if everybody has been told to stop, or because of what the owner or the
    sequencer have let go of. -/
theorem leaving_of_move [BlockCompressor κ] {lane lane' : Lane κ} {queueSize : Nat}
    {cancelled : Bool} {notice : Notice} (move : lane.Move queueSize cancelled lane' notice)
    (leaving : lane'.worker.Leaving) :
    lane.worker.Leaving ∨ cancelled = true ∨ notice = .cancel ∨ lane.ownerAttached = false ∨
      lane.sequencerAttached = false := by
  cases move with
  | quit quits =>
    cases quits with
    | drained worker inbox owner => exact .inr (.inr (.inr (.inl owner)))
    | told entry worker cancelled => exact .inr (.inl cancelled)
    | refused rendered worker sequencer => exact .inr (.inr (.inr (.inr sequencer)))
  | cancel worker => exact .inr (.inr (.inl rfl))
  | closeOutput worker => exact .inl (by rw [worker]; trivial)
  | closeInput worker => exact .inl (by rw [worker]; trivial)
  | receive | take | pass | compress | fail | send | record => exact leaving.elim

theorem workerStep? [BlockCompressor κ] (linked : s.Linked) {i : Nat}
    (step : s.workerStep? i = some s') : s'.Linked := by
  obtain ⟨lane, lane', notice, hlane, move, after⟩ := move_of_workerStep? step
  obtain ⟨howner, hsequencer, alive⟩ := frame_of_move move
  have lanes : s'.lanes = s.lanes.set i lane' := by rw [after, post_lanes]
  obtain ⟨-, sequencer, -, sequenced, owner⟩ := frame_of_workerStep? step
  refine ⟨?owner, ?sequenced, ?ownerAttached, ?sequencerAttached, ?joined, ?joinedSequencer, ?quiet⟩
  case owner =>
    rw [owner]
    exact linked.owner
  case sequenced =>
    rw [sequencer, sequenced]
    exact linked.sequenced
  case ownerAttached =>
    intro j found hfound
    rw [owner]
    rw [lanes] at hfound
    rcases getElem?_set_cases hfound with ⟨rfl, rfl⟩ | ⟨-, hold⟩
    · rw [howner]
      exact linked.ownerAttached j lane hlane
    · exact linked.ownerAttached j found hold
  case sequencerAttached =>
    intro j found hfound
    rw [sequencer]
    rw [lanes] at hfound
    rcases getElem?_set_cases hfound with ⟨rfl, rfl⟩ | ⟨-, hold⟩
    · rw [hsequencer]
      exact linked.sequencerAttached j lane hlane
    · exact linked.sequencerAttached j found hold
  case joined =>
    intro j found hfound hjoined
    rw [owner] at hjoined
    rw [lanes] at hfound
    rcases getElem?_set_cases hfound with ⟨rfl, rfl⟩ | ⟨-, hold⟩
    · exact absurd (linked.joined j lane hlane hjoined) alive
    · exact linked.joined j found hold hjoined
  case joinedSequencer =>
    rw [owner, sequencer]
    exact linked.joinedSequencer
  case quiet =>
    intro opened going
    rw [owner] at opened
    have going : s.cancelled = false ∧ notice ≠ .cancel := by
      rw [after] at going
      cases notice <;> simp_all [post]
    obtain ⟨workers, quietSequencer⟩ := linked.quiet opened going.1
    refine ⟨?_, by rw [sequencer]; exact quietSequencer⟩
    -- whatever made the worker leave would have been there before the step
    intro j found hfound leaving
    rw [lanes] at hfound
    rcases getElem?_set_cases hfound with ⟨rfl, rfl⟩ | ⟨-, hold⟩
    · rcases leaving_of_move move leaving with before | told | cancel | detached | detached
      · exact workers j lane hlane before
      · rw [going.1] at told
        cases told
      · exact going.2 cancel
      · exact linked.owner.not_letGo opened j ((linked.ownerAttached j lane hlane).1 detached)
      · exact quietSequencer ((linked.sequencerAttached j lane hlane).1 detached).leaving
    · exact workers j found hold leaving

/-! ## The sequencer -/

/-- The sequencer publishes its index. -/
theorem sequenced_of_move [Sink ω] (move : s.SequencerMove s')
    (sequenced : s.sequenced = s.sequencer.index) : s'.sequenced = s'.sequencer.index := by
  cases move with
  | @start rendered => cases rendered <;> exact sequenced
  | advance phase => rfl
  | _ => exact sequenced

/-- What the sequencer has let go of stays so; it lets go of one more lane, or of all when there is
    none left. -/
theorem letGo_of_move [Sink ω] (move : s.SequencerMove s') {i : Nat} {lane : Lane κ}
    (hlane : s'.lanes[i]? = some lane)
    (attached : ∀ (i : Nat) (lane : Lane κ), s.lanes[i]? = some lane →
      (lane.sequencerAttached = false ↔ s.sequencer.phase.LetGo i)) :
    lane.sequencerAttached = false ↔ s'.sequencer.phase.LetGo i := by
  cases move with
  | @receive first rendered rest phase turn outbox =>
    rcases getElem?_set_cases hlane with ⟨rfl, rfl⟩ | ⟨-, hold⟩
    · have before := attached _ first turn
      rw [phase] at before
      exact before
    · have before := attached i lane hold
      rw [phase] at before
      exact before
  | leave leaves =>
    have before := attached i lane hlane
    cases leaves with
    | abandoned _ phase | told _ phase =>
      rw [phase] at before
      simpa [SequencerPhase.LetGo] using before
  | @start rendered phase =>
    rw [(s.beginWriting_frame rendered).2.1] at hlane
    have before := attached i lane hlane
    rw [phase] at before
    cases rendered <;> exact before
  | @finish thenFlush phase =>
    have before := attached i lane hlane
    rw [phase] at before
    cases thenFlush <;> exact before
  | write phase | flush phase | advance phase | record phase =>
    have before := attached i lane hlane
    rw [phase] at before
    exact before
  | interrupted => exact attached i lane hlane
  | fail mishap? =>
    have before := attached i lane hlane
    unfold sinkMishap? at mishap?
    split at mishap?
    · next phase =>
      rw [phase] at before
      exact before
    · next phase =>
      rw [phase] at before
      exact before
    · cases mishap?
  | cancel phase =>
    have before := attached i lane hlane
    rw [phase] at before
    simpa [SequencerPhase.LetGo] using before
  | @closeLane k first phase lane? =>
    rcases getElem?_set_cases hlane with ⟨rfl, rfl⟩ | ⟨hne, hold⟩
    · simp [SequencerPhase.LetGo]
    · have before := attached i lane hold
      rw [phase, SequencerPhase.LetGo] at before
      rw [before, SequencerPhase.LetGo]
      omega
  | @exit k phase lane? =>
    have before := attached i lane hlane
    rw [phase, SequencerPhase.LetGo] at before
    have hlt : i < s.lanes.length := (List.getElem?_eq_some_iff.1 hlane).1
    have hle := List.getElem?_eq_none_iff.1 lane?
    rw [before]
    exact ⟨fun _ => trivial, fun _ => by omega⟩

/-- Lanes keep their workers and the owner's end under a move of the sequencer. -/
theorem lane_of_move [Sink ω] (move : s.SequencerMove s') {i : Nat} {lane : Lane κ}
    (hlane : s'.lanes[i]? = some lane) :
    ∃ before, s.lanes[i]? = some before ∧ lane.worker = before.worker ∧
      lane.ownerAttached = before.ownerAttached := by
  cases move.touches with
  | nothing lanes =>
    rw [lanes] at hlane
    exact ⟨lane, hlane, rfl, rfl⟩
  | took first rendered rest phase turn outbox lanes =>
    rw [lanes] at hlane
    rcases getElem?_set_cases hlane with ⟨rfl, rfl⟩ | ⟨-, hold⟩
    · exact ⟨first, turn, rfl, rfl⟩
    · exact ⟨lane, hold, rfl, rfl⟩
  | detached k first lane? lanes =>
    rw [lanes] at hlane
    rcases getElem?_set_cases hlane with ⟨rfl, rfl⟩ | ⟨-, hold⟩
    · exact ⟨first, lane?, rfl, rfl⟩
    · exact ⟨lane, hold, rfl, rfl⟩

/-- Whoever has been told to stop stays told. -/
theorem cancelled_of_sequencerMove [Sink ω] (move : s.SequencerMove s')
    (going : s'.cancelled = false) : s.cancelled = false := by
  cases move with
  | @start rendered => cases rendered <;> exact going
  | cancel phase => cases going
  | _ => exact going

/-- The sequencer leaves if everybody has been told to stop, or because of a worker that does. -/
theorem leaving_of_sequencerMove [Sink ω] (move : s.SequencerMove s')
    (leaving : s'.sequencer.phase.Leaving) :
    s.sequencer.phase.Leaving ∨ s'.cancelled = true ∨
      ∃ lane, s.lanes[s.sequencerTurn]? = some lane ∧ lane.worker.Leaving := by
  cases move with
  | leave leaves =>
    cases leaves with
    | abandoned lane phase turn outbox worker =>
      exact .inr (.inr ⟨lane, turn, leaving_of_holdsOutput worker⟩)
    | told rendered phase cancelled => exact .inr (.inl cancelled)
  | cancel phase => exact .inr (.inl rfl)
  | interrupted => exact .inl leaving
  | closeLane phase | exit phase => exact .inl (by rw [phase]; trivial)
  | @start rendered => cases rendered <;> exact leaving.elim
  | @finish thenFlush => cases thenFlush <;> exact leaving.elim
  | receive | write | flush | fail | advance | record => exact leaving.elim

theorem sequencerStep? [Sink ω] (linked : s.Linked) (step : s.sequencerStep? = some s') :
    s'.Linked := by
  have move := move_of_sequencerStep? step
  obtain ⟨-, owner⟩ := move.frame
  refine ⟨?owner, sequenced_of_move move linked.sequenced, ?ownerAttached, ?sequencerAttached,
    ?joined, ?joinedSequencer, ?quiet⟩
  case owner =>
    rw [owner]
    exact linked.owner
  case ownerAttached =>
    intro i lane hlane
    obtain ⟨before, hbefore, -, howner⟩ := lane_of_move move hlane
    rw [owner, howner]
    exact linked.ownerAttached i before hbefore
  case sequencerAttached =>
    intro i lane hlane
    exact letGo_of_move move hlane linked.sequencerAttached
  case joined =>
    intro i lane hlane hjoined
    obtain ⟨before, hbefore, hworker, -⟩ := lane_of_move move hlane
    rw [owner] at hjoined
    rw [hworker]
    exact linked.joined i before hbefore hjoined
  case joinedSequencer =>
    intro hjoined
    rw [owner] at hjoined
    -- a sequencer that has been joined takes no step
    have exited := linked.joinedSequencer hjoined
    simp [Pipeline.sequencerStep?, exited] at step
  case quiet =>
    intro opened going
    rw [owner] at opened
    have before : s.cancelled = false := cancelled_of_sequencerMove move going
    obtain ⟨workers, quietSequencer⟩ := linked.quiet opened before
    constructor
    · intro i lane hlane
      obtain ⟨lane', hlane', hworker, -⟩ := lane_of_move move hlane
      rw [hworker]
      exact workers i lane' hlane'
    · intro leaving
      rcases leaving_of_sequencerMove move leaving with still | told | ⟨lane, hlane, hworker⟩
      · exact quietSequencer still
      · rw [going] at told
        cases told
      · exact workers _ lane hlane hworker

/-! ## The owner -/

/-- Lanes keep their workers and the sequencer's end under a move of the owner. -/
theorem lane_of_ownerMove (move : s.OwnerMove s') {i : Nat} {lane : Lane κ}
    (hlane : s'.lanes[i]? = some lane) :
    ∃ before, s.lanes[i]? = some before ∧ lane.worker = before.worker ∧
      lane.sequencerAttached = before.sequencerAttached := by
  cases move.touches with
  | nothing lanes =>
    rw [lanes] at hlane
    exact ⟨lane, hlane, rfl, rfl⟩
  | sent entry first submission? turn worker lanes =>
    rw [lanes] at hlane
    rcases getElem?_set_cases hlane with ⟨rfl, rfl⟩ | ⟨-, hold⟩
    · exact ⟨first, turn, rfl, rfl⟩
    · exact ⟨lane, hold, rfl, rfl⟩
  | detached k first lane? lanes =>
    rw [lanes] at hlane
    rcases getElem?_set_cases hlane with ⟨rfl, rfl⟩ | ⟨-, hold⟩
    · exact ⟨first, lane?, rfl, rfl⟩
    · exact ⟨lane, hold, rfl, rfl⟩

/-- An owner that has an entry to submit is open. -/
theorem open_of_submission? {entry : Entry} (consistent : s.owner.Consistent)
    (submission? : s.submission? = some entry) : s.owner.closed = false := by
  unfold Owner.Consistent at consistent
  unfold Pipeline.submission? at submission?
  split at submission?
  · next phase =>
    rw [phase] at consistent
    exact consistent
  · next phase =>
    rw [phase] at consistent
    exact consistent
  · cases submission?

/-- An owner that gives up is open. -/
theorem open_of_givesUp (consistent : s.owner.Consistent) (givesUp : s.OwnerGivesUp) :
    s.owner.closed = false := by
  cases givesUp with
  | raised call phase =>
    rw [Owner.Consistent, phase] at consistent
    exact consistent
  | refused entry submission? => exact open_of_submission? consistent submission?
  | told target last phase =>
    rw [Owner.Consistent, phase] at consistent
    exact consistent.1

theorem closed_ownerAfterSending (s : Pipeline κ ω) :
    s.ownerAfterSending.closed = s.owner.closed := by
  unfold ownerAfterSending
  split <;> rfl

/-- What is open after a move of the owner was open before, and nobody has been told to stop by
    it. -/
theorem open_of_ownerMove (move : s.OwnerMove s') (opened : s'.owner.closed = false) :
    s.owner.closed = false ∧ s'.cancelled = s.cancelled := by
  cases move with
  | send => exact ⟨(closed_ownerAfterSending s).symm.trans opened, rfl⟩
  | finishClose | cancel => cases opened
  | _ => exact ⟨opened, rfl⟩

/-- What a move of the owner does to the writer as a whole: it stays open, or it is closed, which
    takes a row of steps. -/
inductive OwnerStage (s s' : Pipeline κ ω) : Prop
  | stillOpen (before : s.owner.closed = false) (after : s'.owner.closed = false)
      (attached : ∀ (i : Nat) (lane : Lane κ), s'.lanes[i]? = some lane →
        ∃ before : Lane κ, s.lanes[i]? = some before ∧ lane.ownerAttached = before.ownerAttached)
  | begins (failed : Bool) (before : s.owner.closed = false) (after : s'.owner.closed = true)
      (phase : s'.owner.phase = .closing 0 failed) (lanes : s'.lanes = s.lanes)
  | closeLane (i : Nat) (failed : Bool) (lane : Lane κ) (before : s.owner.phase = .closing i failed)
      (after : s'.owner.phase = .closing (i + 1) failed) (lane? : s.lanes[i]? = some lane)
      (lanes : s'.lanes = s.lanes.set i { lane with ownerAttached := false })
      (closed : s'.owner.closed = true)
  | closed (i : Nat) (failed : Bool) (before : s.owner.phase = .closing i failed)
      (after : s'.owner.phase = .joining 0 failed) (lane? : s.lanes[i]? = none)
      (lanes : s'.lanes = s.lanes) (closed : s'.owner.closed = true)
  | join (i : Nat) (failed : Bool) (lane : Lane κ) (before : s.owner.phase = .joining i failed)
      (after : s'.owner.phase = .joining (i + 1) failed) (lane? : s.lanes[i]? = some lane)
      (worker : lane.worker.holdsInput = false) (lanes : s'.lanes = s.lanes)
      (closed : s'.owner.closed = true)
  | joined (i : Nat) (failed : Bool) (before : s.owner.phase = .joining i failed)
      (after : s'.owner.phase = .joiningSequencer failed) (lane? : s.lanes[i]? = none)
      (lanes : s'.lanes = s.lanes) (closed : s'.owner.closed = true)
  | joinSequencer (failed : Bool) (before : s.owner.phase = .joiningSequencer failed)
      (after : s'.owner.phase = .reporting failed) (sequencer : s.sequencer.phase = .exited)
      (lanes : s'.lanes = s.lanes) (closed : s'.owner.closed = true)
  | report (failed : Bool) (result : Except Error Nat) (before : s.owner.phase = .reporting failed)
      (after : s'.owner.phase = .ready result) (lanes : s'.lanes = s.lanes)
      (closed : s'.owner.closed = true)

theorem stage_of_move (consistent : s.owner.Consistent) (move : s.OwnerMove s') :
    OwnerStage s s' := by
  have owner := consistent
  rw [Owner.Consistent] at owner
  cases move with
  | giveUp givesUp =>
    have opened := open_of_givesUp consistent givesUp
    exact .stillOpen opened opened fun i lane hlane => ⟨lane, hlane, rfl⟩
  | submitNothing phase | beginSubmit phase | beginFlush phase | beginClose phase =>
    rw [phase] at owner
    exact .stillOpen owner owner fun i lane hlane => ⟨lane, hlane, rfl⟩
  | finishFlush phase =>
    rw [phase] at owner
    exact .stillOpen owner.1 owner.1 fun i lane hlane => ⟨lane, hlane, rfl⟩
  | @send entry first submission? turn =>
    have opened := open_of_submission? consistent submission?
    refine .stillOpen opened ((closed_ownerAfterSending s).trans opened) ?_
    intro i lane hlane
    rcases getElem?_set_cases hlane with ⟨rfl, rfl⟩ | ⟨-, hold⟩
    · exact ⟨first, turn, rfl⟩
    · exact ⟨lane, hold, rfl⟩
  | finishClose phase =>
    rw [phase] at owner
    exact .begins false owner.1 rfl rfl rfl
  | cancel phase =>
    rw [phase] at owner
    exact .begins true owner rfl rfl rfl
  | closeLane phase lane? =>
    rw [phase] at owner
    exact .closeLane _ _ _ phase rfl lane? rfl owner
  | closed phase lane? =>
    rw [phase] at owner
    exact .closed _ _ phase rfl lane? rfl owner
  | join phase lane? worker =>
    rw [phase] at owner
    exact .join _ _ _ phase rfl lane? worker rfl owner
  | joined phase lane? =>
    rw [phase] at owner
    exact .joined _ _ phase rfl lane? rfl owner
  | joinSequencer phase sequencer =>
    rw [phase] at owner
    exact .joinSequencer _ phase rfl sequencer rfl owner
  | report phase =>
    rw [phase] at owner
    exact .report _ _ phase rfl rfl owner

theorem consistent_of_move (move : s.OwnerMove s') (consistent : s.owner.Consistent) :
    s'.owner.Consistent := by
  have owner := consistent
  rw [Owner.Consistent] at owner
  cases move with
  | giveUp givesUp =>
    have opened : s.owner.closed = false := open_of_givesUp consistent givesUp
    exact opened
  | submitNothing | finishFlush | report => trivial
  | beginSubmit phase | beginFlush phase | beginClose phase =>
    rw [phase] at owner
    exact owner
  | send submission? turn worker room =>
    have opened : s.ownerAfterSending.closed = false :=
      (closed_ownerAfterSending s).trans (open_of_submission? consistent submission?)
    have submitted := ownerAfterSending_submitted submission?
    rw [Owner.Consistent]
    rcases phase_ownerAfterSending submission? with
      ⟨_, _, -, after | ⟨_, after⟩⟩ | ⟨_, -, after⟩
    · simp only [after]
    · simp only [after]
      exact opened
    · simp only [after]
      exact ⟨opened, submitted.symm⟩
  | finishClose | cancel => rfl
  | closeLane phase | closed phase | join phase | joined phase | joinSequencer phase =>
    rw [phase] at owner
    exact owner

/-- What the owner has let go of stays so; it lets go of one more lane at a time. -/
theorem letGo_of_ownerMove (linked : s.Linked) (move : s.OwnerMove s') {i : Nat} {lane : Lane κ}
    (hlane : s'.lanes[i]? = some lane) : lane.ownerAttached = false ↔ s'.owner.LetGo i := by
  have before := linked.ownerAttached i
  have owner := linked.owner
  rw [Owner.Consistent] at owner
  unfold Owner.LetGo at before
  cases stage_of_move linked.owner move with
  | stillOpen opened after attached =>
    obtain ⟨lane', hlane', hattached⟩ := attached i lane hlane
    rw [hattached, linked.ownerAttached i lane' hlane']
    exact iff_of_false (linked.owner.not_letGo opened i)
      ((consistent_of_move move linked.owner).not_letGo after i)
  | begins failed opened closed phase lanes =>
    rw [lanes] at hlane
    rw [linked.ownerAttached i lane hlane]
    refine iff_of_false (linked.owner.not_letGo opened i) ?_
    rw [Owner.LetGo, phase]
    exact Nat.not_lt_zero i
  | closeLane k failed first phase after lane? lanes closed =>
    rw [lanes] at hlane
    rw [Owner.LetGo, after]
    rcases getElem?_set_cases hlane with ⟨rfl, rfl⟩ | ⟨hne, hold⟩
    · exact iff_of_true rfl (Nat.lt_succ_self i)
    · rw [phase] at before
      rw [before lane hold]
      dsimp only
      omega
  | closed k failed phase after lane? lanes closed =>
    rw [lanes] at hlane
    have hlt := (List.getElem?_eq_some_iff.1 hlane).1
    have hle := List.getElem?_eq_none_iff.1 lane?
    rw [phase] at before
    rw [before lane hlane, Owner.LetGo, after]
    exact iff_of_true (Nat.lt_of_lt_of_le hlt hle) closed
  | join k failed first phase after lane? worker lanes closed =>
    rw [lanes] at hlane
    rw [phase] at before owner
    rw [before lane hlane, Owner.LetGo, after]
    exact iff_of_true owner closed
  | joined k failed phase after lane? lanes closed =>
    rw [lanes] at hlane
    rw [phase] at before owner
    rw [before lane hlane, Owner.LetGo, after]
    exact iff_of_true owner closed
  | joinSequencer failed phase after sequencer lanes closed =>
    rw [lanes] at hlane
    rw [phase] at before owner
    rw [before lane hlane, Owner.LetGo, after]
    exact iff_of_true owner closed
  | report failed result phase after lanes closed =>
    rw [lanes] at hlane
    rw [phase] at before owner
    rw [before lane hlane, Owner.LetGo, after]
    exact iff_of_true owner closed

/-- Whom the owner has seen exit is gone. -/
theorem joined_of_ownerMove (linked : s.Linked) (move : s.OwnerMove s') {i : Nat} {lane : Lane κ}
    (hlane : s.lanes[i]? = some lane) (joined : s'.owner.Joined i) : lane.worker = .exited := by
  have before := linked.joined i lane hlane
  have owner := linked.owner
  rw [Owner.Consistent] at owner
  unfold Owner.Joined at before
  cases stage_of_move linked.owner move with
  | stillOpen opened after =>
    exact absurd joined ((consistent_of_move move linked.owner).not_joined after i)
  | begins failed opened closed phase | closeLane k failed first opened phase =>
    rw [Owner.Joined, phase] at joined
    exact joined.elim
  | closed k failed phase after =>
    rw [Owner.Joined, after] at joined
    exact absurd joined (Nat.not_lt_zero i)
  | join k failed first phase after lane? worker =>
    rw [Owner.Joined, after] at joined
    rw [phase] at before
    rcases Nat.lt_succ_iff_lt_or_eq.1 joined with earlier | rfl
    · exact before earlier
    · rw [hlane] at lane?
      cases lane?
      exact exited_of_holdsInput worker
  | joined k failed phase after lane? =>
    have hlt := (List.getElem?_eq_some_iff.1 hlane).1
    have hle := List.getElem?_eq_none_iff.1 lane?
    rw [phase] at before
    exact before (Nat.lt_of_lt_of_le hlt hle)
  | joinSequencer failed phase | report failed result phase =>
    rw [phase] at before owner
    exact before owner

/-- The owner reports when the sequencer is gone. -/
theorem joinedSequencer_of_ownerMove (linked : s.Linked) (move : s.OwnerMove s')
    (joined : s'.owner.JoinedSequencer) : s.sequencer.phase = .exited := by
  have before := linked.joinedSequencer
  have owner := linked.owner
  rw [Owner.Consistent] at owner
  unfold Owner.JoinedSequencer at before
  cases stage_of_move linked.owner move with
  | stillOpen opened after => exact absurd joined (Owner.not_joinedSequencer after)
  | begins failed opened closed phase
  | closeLane k failed first opened phase
  | closed k failed opened phase
  | join k failed first opened phase
  | joined k failed opened phase =>
    rw [Owner.JoinedSequencer, phase] at joined
    exact joined.elim
  | joinSequencer failed phase after sequencer => exact sequencer
  | report failed result phase =>
    rw [phase] at before owner
    exact before owner

theorem ownerStep? (linked : s.Linked) (step : s.ownerStep? = some s') : s'.Linked := by
  have move := move_of_ownerStep? step
  obtain ⟨-, sequencer, -, sequenced⟩ := move.frame
  refine ⟨consistent_of_move move linked.owner, ?sequenced, ?ownerAttached, ?sequencerAttached,
    ?joined, ?joinedSequencer, ?quiet⟩
  case sequenced =>
    rw [sequenced, sequencer]
    exact linked.sequenced
  case ownerAttached =>
    intro i lane hlane
    exact letGo_of_ownerMove linked move hlane
  case sequencerAttached =>
    intro i lane hlane
    obtain ⟨before, hbefore, -, hsequencer⟩ := lane_of_ownerMove move hlane
    rw [sequencer, hsequencer]
    exact linked.sequencerAttached i before hbefore
  case joined =>
    intro i lane hlane joined
    obtain ⟨before, hbefore, hworker, -⟩ := lane_of_ownerMove move hlane
    rw [hworker]
    exact joined_of_ownerMove linked move hbefore joined
  case joinedSequencer =>
    rw [sequencer]
    exact joinedSequencer_of_ownerMove linked move
  case quiet =>
    intro opened going
    obtain ⟨before, cancelled⟩ := open_of_ownerMove move opened
    rw [cancelled] at going
    obtain ⟨workers, quietSequencer⟩ := linked.quiet before going
    refine ⟨?_, by rw [sequencer]; exact quietSequencer⟩
    intro i lane hlane
    obtain ⟨lane', hlane', hworker, -⟩ := lane_of_ownerMove move hlane
    rw [hworker]
    exact workers i lane' hlane'

/-! ## Requests -/

theorem request (linked : s.Linked) (returned : s.Returned) (r : Request) :
    (s.request r).Linked := by
  obtain ⟨result, ready⟩ := returned
  have attached := linked.ownerAttached
  have joined := linked.joined
  have joinedSequencer := linked.joinedSequencer
  unfold Owner.LetGo at attached
  unfold Owner.Joined at joined
  unfold Owner.JoinedSequencer at joinedSequencer
  rw [ready] at attached joined joinedSequencer
  cases closed : s.owner.closed with
  | true =>
    rw [request_of_closed closed]
    exact ⟨trivial, linked.sequenced, attached, linked.sequencerAttached, joined, joinedSequencer,
      linked.quiet⟩
  | false =>
    rw [request_of_open closed]
    exact ⟨closed, linked.sequenced, attached, linked.sequencerAttached, joined, joinedSequencer,
      linked.quiet⟩

/-- When the call that closed a writer has returned, everybody is gone. -/
theorem exited (linked : s.Linked) (returned : s.Returned)
    (closed : s.owner.closed = true) :
    (∀ lane ∈ s.lanes, lane.worker = .exited) ∧ s.sequencer.phase = .exited := by
  obtain ⟨result, phase⟩ := returned
  constructor
  · intro lane hlane
    obtain ⟨i, hi⟩ := List.getElem?_of_mem hlane
    have joined := linked.joined i lane hi
    rw [Owner.Joined, phase] at joined
    exact joined closed
  · have joined := linked.joinedSequencer
    rw [Owner.JoinedSequencer, phase] at joined
    exact joined closed

end Linked

theorem Run.linked [BlockCompressor κ] [Sink ω] {settings : Settings} {compressors : List κ}
    {sink : ω} {h : History κ ω} {s : Pipeline κ ω}
    (run : Run (Pipeline.new settings compressors sink) h s) : s.Linked := by
  induction run with
  | start => exact .new settings compressors sink
  | @step _ _ _ party _ step ih =>
    cases party with
    | owner => exact ih.ownerStep? step
    | worker i => exact ih.workerStep? step
    | sequencer => exact ih.sequencerStep? step
  | request r _ returned ih => exact ih.request returned r

end Pipeline

end ParallelGzip
