import ParallelGzip.Proofs.Opening
import ParallelGzip.Proofs.Pipeline.Calls
import ParallelGzip.Proofs.Pipeline.Order

set_option autoImplicit false

/-! # Liveness: every call of a writer returns

A party that cannot take a step waits for another one. Going round the queues from who waits shows
that nobody waits for ever: if neither a worker nor the sequencer can take a step, then either the
sequencer is gone, or everything that was submitted is done. Either way the owner can go on, unless
its call has returned. As every step decreases a measure, a call returns on every schedule. -/

namespace ParallelGzip

variable {κ ω : Type}

/-! ## Who waits for what -/

/-- What a worker waits for: an entry, or room for one, unless it is gone. -/
inductive Lane.Waits (lane : Lane κ) (queueSize : Nat) : Prop
  | entry (worker : lane.worker = .receiving) (inbox : lane.inbox = [])
      (owner : lane.ownerAttached = true)
  | room (rendered : Rendered) (worker : lane.worker = .sending rendered)
      (sequencer : lane.sequencerAttached = true) (full : queueSize ≤ lane.outbox.length)
  | gone (worker : lane.worker = .exited)

theorem Lane.waits_of_step? [BlockCompressor κ] {lane : Lane κ} {queueSize : Nat}
    {cancelled : Bool} (h : lane.step? queueSize cancelled = none) : lane.Waits queueSize := by
  unfold step? at h
  split at h
  · next worker =>
    split at h
    · cases h
    · next inbox =>
      split at h
      · next owner => exact .entry worker inbox owner
      · cases h
  · split at h
    · cases h
    · split at h <;> cases h
  · split at h <;> cases h
  · next rendered worker =>
    split at h
    · cases h
    · next attached =>
      split at h
      · cases h
      · next full => exact .room rendered worker (by simpa using attached) (by omega)
  · cases h
  · cases h
  · cases h
  · cases h
  · next worker => exact .gone worker

namespace Pipeline

/-- What the sequencer waits for: an entry from a worker that is not gone, unless it is gone
    itself. -/
inductive SequencerWaits (s : Pipeline κ ω) : Prop
  | entry (lane : Lane κ) (phase : s.sequencer.phase = .receiving)
      (turn : s.lanes[s.sequencerTurn]? = some lane) (outbox : lane.outbox = [])
      (worker : lane.worker.holdsOutput = true)
  | gone (phase : s.sequencer.phase = .exited)

theorem sequencerWaits_of_step? [Sink ω] {s : Pipeline κ ω} (nonempty : s.lanes ≠ [])
    (h : s.sequencerStep? = none) : s.SequencerWaits := by
  unfold sequencerStep? at h
  split at h
  · next phase =>
    dsimp only at h
    split at h
    · next nobody =>
      have hturn := Nat.mod_lt s.sequencer.index (List.length_pos_iff.2 nonempty)
      exact absurd (List.getElem?_eq_none_iff.1 nobody) (Nat.not_le.2 hturn)
    · next lane turn =>
      split at h
      · cases h
      · next outbox =>
        split at h
        · next worker => exact .entry lane phase turn outbox worker
        · cases h
  · split at h <;> cases h
  · split at h <;> cases h
  · split at h <;> cases h
  · cases h
  · cases h
  · cases h
  · split at h <;> cases h
  · next phase => exact .gone phase

/-- What the owner waits for, unless its call has returned. -/
inductive OwnerWaits (s : Pipeline κ ω) : Prop
  | nothing (returned : s.Returned)
  | room (lane : Lane κ) (turn : s.lanes[s.ownerTurn]? = some lane)
      (worker : lane.worker.holdsInput = true) (full : s.settings.queueSize ≤ lane.inbox.length)
  | entry (target : Nat) (last : Bool) (phase : s.owner.phase = .waiting target last)
      (undone : s.sequenced < target) (going : s.cancelled = false)
  | worker (i : Nat) (failed : Bool) (lane : Lane κ) (phase : s.owner.phase = .joining i failed)
      (lane? : s.lanes[i]? = some lane) (worker : lane.worker.holdsInput = true)
  | sequencer (failed : Bool) (phase : s.owner.phase = .joiningSequencer failed)
      (sequencer : s.sequencer.phase ≠ .exited)

theorem send_eq_blocked {s : Pipeline κ ω} {entry : Entry} (h : s.send entry = .blocked) :
    ∃ lane, s.lanes[s.ownerTurn]? = some lane ∧ lane.worker.holdsInput = true ∧
      s.settings.queueSize ≤ lane.inbox.length := by
  unfold send at h
  dsimp only at h
  split at h
  · cases h
  · next lane turn =>
    split at h
    · cases h
    · next worker =>
      split at h
      · cases h
      · exact ⟨lane, turn, by simpa using worker, by omega⟩

theorem ownerWaits_of_step? {s : Pipeline κ ω} (h : s.ownerStep? = none) : s.OwnerWaits := by
  unfold ownerStep? at h
  split at h
  · next result phase => exact .nothing ⟨result, phase⟩
  · split at h
    · cases h
    · split at h <;> cases h
  · dsimp only at h
    split at h
    · cases h
    · next blocked =>
      obtain ⟨lane, turn, worker, full⟩ := send_eq_blocked blocked
      exact .room lane turn worker full
    · cases h
  · split at h
    · cases h
    · next blocked =>
      obtain ⟨lane, turn, worker, full⟩ := send_eq_blocked blocked
      exact .room lane turn worker full
    · cases h
  · next target last phase =>
    split at h
    · split at h <;> cases h
    · next undone =>
      split at h
      · cases h
      · next going => exact .entry target last phase (by omega) (by simpa using going)
  · cases h
  · split at h <;> cases h
  · next i failed phase =>
    split at h
    · cases h
    · next lane lane? =>
      split at h
      · next worker => exact .worker i failed lane phase lane? worker
      · cases h
  · next failed phase =>
    split at h
    · cases h
    · next sequencer => exact .sequencer failed phase sequencer
  · cases h

end Pipeline

/-! ## Counting -/

section Counting

variable [BlockCompressor κ] {compressor : κ} {given : List Entry} {taken : List Rendered}
  {lane : Lane κ}

/-- All that a lane has been given and its worker is done with has been taken, or can be. -/
theorem Lane.Follows.length_of_receiving (follows : lane.Follows compressor given taken)
    (worker : lane.worker = .receiving) (attached : lane.sequencerAttached = true) :
    given.length = taken.length + lane.outbox.length + lane.inbox.length := by
  obtain ⟨done, later, unsent, now, rfl, hmade, holds⟩ := follows
  rw [Holds, worker] at holds
  obtain ⟨rfl, -, hunsent⟩ := holds
  have hlen := length_of_compressEntries hmade
  rw [hunsent attached, List.append_nil, List.length_append] at hlen
  rw [List.length_append]
  omega

/-- What a worker holds in its hand has been given to its lane and has not been taken. -/
theorem Lane.Follows.lt_length_of_sending {rendered : Rendered}
    (follows : lane.Follows compressor given taken) (worker : lane.worker = .sending rendered)
    (attached : lane.sequencerAttached = true) : taken.length < given.length := by
  obtain ⟨done, later, unsent, now, rfl, hmade, holds⟩ := follows
  rw [Holds, worker] at holds
  obtain ⟨rfl, -, hunsent⟩ := holds
  have hlen := length_of_compressEntries hmade
  rw [hunsent attached, List.length_append, List.length_append, List.length_singleton] at hlen
  rw [List.length_append]
  omega

end Counting

namespace Pipeline

variable [BlockCompressor κ] {compressors : List κ} {h : History κ ω} {s : Pipeline κ ω}

/-- If the lane whose turn it is has no entry left for the sequencer, then no lane has. -/
theorem Ordered.taken_eq (ordered : s.Ordered compressors h) (nonempty : compressors ≠ [])
    (hlength : (turns compressors.length (h.taken.length % compressors.length) h.entries).length =
      (turns compressors.length (h.taken.length % compressors.length) h.taken).length) :
    h.taken.length = h.entries.length := by
  have hn : 0 < compressors.length := List.length_pos_iff.2 nonempty
  have hle := ordered.taken_length_le nonempty
  by_contra hne
  have hfound := getElem?_turns hn h.entries h.taken.length
  rw [List.getElem?_eq_getElem (Nat.lt_of_le_of_ne hle hne)] at hfound
  have hlt := (List.getElem?_eq_some_iff.1 hfound).1
  have hcount := length_turns (Nat.mod_lt h.taken.length hn) h.taken
  rw [if_neg (Nat.lt_irrefl _), Nat.add_zero] at hcount
  rw [hlength, hcount] at hlt
  exact Nat.lt_irrefl _ hlt

/-! ## Nobody waits for ever -/

/-- Nobody can take a step. -/
def Stuck [Sink ω] (s : Pipeline κ ω) : Prop := ∀ party, s.step? party = none

namespace Stuck

variable [Sink ω]

theorem waits (stuck : s.Stuck) {i : Nat} {lane : Lane κ} (hlane : s.lanes[i]? = some lane) :
    lane.Waits s.settings.queueSize := by
  have hstep := stuck (.worker i)
  simp only [step?, workerStep?, hlane] at hstep
  split at hstep
  · next hnone => exact Lane.waits_of_step? hnone
  · cases hstep

/-- If nobody can take a step but the sequencer is not gone, then the worker whose turn it is waits
    for an entry, and the sequencer has taken everything that was submitted. -/
theorem drained (stuck : s.Stuck) (nonempty : compressors ≠ []) (ordered : s.Ordered compressors h)
    (linked : s.Linked) (alive : s.sequencer.phase ≠ .exited) :
    s.sequencer.index = s.owner.submitted ∧ h.taken.length = h.entries.length ∧
      ∃ lane, s.lanes[s.sequencerTurn]? = some lane ∧ lane.worker = .receiving ∧
        lane.ownerAttached = true := by
  cases sequencerWaits_of_step? (ordered.lanes_ne_nil nonempty) (stuck .sequencer) with
  | gone phase => exact absurd phase alive
  | entry lane phase turn outbox holdsOutput =>
    -- the sequencer waits for the lane whose turn it is, and then so does that lane for the owner
    have hcount := ordered.taken_length
    rw [phase, SequencerPhase.Took] at hcount
    have attached : lane.sequencerAttached = true := by
      by_contra detached
      have letGo := (linked.sequencerAttached _ lane turn).1 (by simpa using detached)
      rw [phase] at letGo
      exact letGo
    cases stuck.waits turn with
    | gone worker =>
      rw [worker] at holdsOutput
      cases holdsOutput
    | room rendered worker sequencer full =>
      have hpos := s.settings.queueSize_pos
      rw [outbox, List.length_nil] at full
      omega
    | entry worker inbox owner =>
      have hturn : s.sequencerTurn = h.taken.length % compressors.length := by
        rw [sequencerTurn, hcount, ordered.lanes_length]
      rw [hturn] at turn
      have hmod := Nat.mod_lt h.taken.length (List.length_pos_iff.2 nonempty)
      have follows := ordered.follows _ _ lane (List.getElem?_eq_getElem hmod) turn
      have hlength := follows.length_of_receiving worker attached
      simp only [outbox, inbox, List.length_nil, Nat.add_zero] at hlength
      have hall := ordered.taken_eq nonempty hlength
      refine ⟨?_, hall, lane, ?_, worker, owner⟩
      · rw [← hcount, hall, ordered.entries_length]
      · rw [hturn]
        exact turn

/-- If nobody can take a step but the sequencer is not gone, then no worker holds an entry. -/
theorem not_sending (stuck : s.Stuck) (nonempty : compressors ≠ [])
    (ordered : s.Ordered compressors h) (linked : s.Linked) {i : Nat} {lane : Lane κ}
    {rendered : Rendered} (hlane : s.lanes[i]? = some lane)
    (worker : lane.worker = .sending rendered) (attached : lane.sequencerAttached = true) :
    False := by
  have alive : s.sequencer.phase ≠ .exited := by
    intro exited
    have letGo := linked.sequencerAttached i lane hlane
    rw [exited, attached] at letGo
    exact Bool.noConfusion (letGo.2 trivial)
  obtain ⟨-, hall, -⟩ := stuck.drained nonempty ordered linked alive
  have hi : i < compressors.length := by
    rw [← ordered.lanes_length]
    exact (List.getElem?_eq_some_iff.1 hlane).1
  have follows := ordered.follows i _ lane (List.getElem?_eq_getElem hi) hlane
  have hlt := follows.lt_length_of_sending worker attached
  rw [length_turns hi, length_turns hi, hall] at hlt
  exact Nat.lt_irrefl _ hlt

/-- If nobody can take a step, then the call has returned. -/
theorem returned (stuck : s.Stuck) (nonempty : compressors ≠ [])
    (ordered : s.Ordered compressors h) (linked : s.Linked) : s.Returned := by
  have consistent := linked.owner
  rw [Owner.Consistent] at consistent
  cases ownerWaits_of_step? (stuck .owner) with
  | nothing returned => exact returned
  | room lane turn worker full =>
    exfalso
    -- the lane is full, so its worker waits for something else than an entry
    cases stuck.waits turn with
    | entry receiving inbox owner =>
      have hpos := s.settings.queueSize_pos
      rw [inbox, List.length_nil] at full
      omega
    | room rendered sending attached =>
      exact stuck.not_sending nonempty ordered linked turn sending attached
    | gone exited =>
      rw [exited] at worker
      cases worker
  | entry target last phase undone going =>
    exfalso
    rw [phase] at consistent
    obtain ⟨-, quiet⟩ := linked.quiet consistent.1 going
    have alive : s.sequencer.phase ≠ .exited := by
      intro exited
      rw [exited] at quiet
      exact quiet trivial
    -- everything that was submitted has been taken, so it counts as sequenced
    obtain ⟨hindex, -⟩ := stuck.drained nonempty ordered linked alive
    rw [linked.sequenced, hindex, consistent.2] at undone
    exact Nat.lt_irrefl _ undone
  | worker i failed lane phase lane? worker =>
    exfalso
    rw [phase] at consistent
    -- the owner has let go of all the lanes, so no worker waits for it
    have letGo : ∀ (j : Nat) (lane : Lane κ), s.lanes[j]? = some lane →
        lane.ownerAttached = false := by
      intro j lane hlane
      rw [linked.ownerAttached j lane hlane, Owner.LetGo, phase]
      exact consistent
    cases stuck.waits lane? with
    | entry receiving inbox owner =>
      rw [letGo i lane lane?] at owner
      cases owner
    | room rendered sending attached =>
      exact stuck.not_sending nonempty ordered linked lane? sending attached
    | gone exited =>
      rw [exited] at worker
      cases worker
  | sequencer failed phase alive =>
    exfalso
    rw [phase] at consistent
    -- the worker whose turn it is would still be there, but all workers have been joined
    obtain ⟨-, -, lane, turn, receiving, -⟩ := stuck.drained nonempty ordered linked alive
    have joined := linked.joined _ lane turn
    rw [Owner.Joined, phase] at joined
    rw [joined consistent] at receiving
    cases receiving

end Stuck

/-! ## Calls return -/

section Returns

variable [Sink ω]

/-- As long as the call has not returned, somebody can take a step. -/
theorem Run.progress {settings : Settings} {sink : ω} (nonempty : compressors ≠ [])
    (run : Run (Pipeline.new settings compressors sink) h s) (running : ¬s.Returned) :
    ∃ party s', s.step? party = some s' := by
  by_contra nobody
  refine running (Stuck.returned ?_ nonempty run.ordered run.linked)
  intro party
  cases hstep : s.step? party with
  | none => rfl
  | some s' => exact absurd ⟨party, s', hstep⟩ nobody

theorem wellFounded_less : WellFounded Less := by
  have nat : WellFounded (fun m n : Nat => m < n) := Nat.lt_wfRel.wf
  exact (Prod.lex ⟨_, nat⟩ (Prod.lex ⟨_, nat⟩ ⟨_, nat⟩)).wf

/-- The call returns, whoever takes the next step, and the step after it, and so on: it has
    returned, or somebody can take a step, and behind every step that anybody can take it
    returns. -/
inductive Returns [BlockCompressor κ] : Pipeline κ ω → Prop
  | now {s : Pipeline κ ω} (returned : s.Returned) : Returns s
  | later {s : Pipeline κ ω} (can : ∃ party s', s.step? party = some s')
      (all : ∀ party s', s.step? party = some s' → Returns s') : Returns s

theorem Run.returns {settings : Settings} {sink : ω} (nonempty : compressors ≠ [])
    (run : Run (Pipeline.new settings compressors sink) h s) : s.Returns := by
  generalize hm : s.measure = m
  induction m using wellFounded_less.induction generalizing h s with
  | _ m ih =>
    by_cases returned : s.Returned
    · exact .now returned
    · refine .later (run.progress nonempty returned) ?_
      intro party s' step
      exact ih s'.measure (hm ▸ measure_step? step) (run.step step) rfl

end Returns

end Pipeline

namespace Writer

open Pipeline in
/-- A writer never gets stuck: as long as a call has not returned, somebody can take a step, and
    every step decreases a measure, so that the call returns on every schedule. A call that is to
    close the writer has closed it when it returns, and when a closed writer's call has returned,
    everybody is gone. -/
theorem calls_return [BlockCompressor κ] [Sink ω] {machine : Machine} {sink : ω}
    {options : WriterOptions} {compressor : Nat → κ} {w : Writer κ ω} {h : History κ ω}
    {s : Pipeline κ ω}
    (opened : openWith machine sink options compressor = .opened w) (run : w.pipeline.Run h s) :
    (¬s.Returned → ∃ party s', s.step? party = some s') ∧
      (∀ party s', s.step? party = some s' → Less s'.measure s.measure) ∧ WellFounded Less ∧
      s.Returns ∧
      (∀ (h₁ : History κ ω) (call : Moment κ ω) (h₂ : History κ ω) (r : Request),
        h = h₁ ++ call :: h₂ → call.request? = some r → h₂.requests = [] → r.call = .close →
        s.Returned → s.owner.closed = true) ∧
      (s.Returned → s.owner.closed = true →
        (∀ lane ∈ s.lanes, lane.worker = .exited) ∧ s.sequencer.phase = .exited) := by
  obtain ⟨n, valid⟩ := exists_validate_of_openWith opened
  obtain ⟨sink', header, start⟩ := pipeline_of_openWith valid opened
  rw [start] at run
  have nonempty := compressors_ne_nil valid compressor
  refine ⟨run.progress nonempty, fun party s' step => measure_step? step, wellFounded_less,
    run.returns nonempty, ?_, run.linked.exited⟩
  rintro h₁ call h₂ r rfl request? alone closes ⟨result, phase⟩
  have carries := run.carries_since request? alone
  rw [Carries, phase] at carries
  exact carries closes

/-- A writer in memory that is being closed. -/
theorem calls_return_closing :
    ∃ (w : Writer DeflateCompressor (Array UInt8)) (h : History DeflateCompressor (Array UInt8))
      (s : Pipeline DeflateCompressor (Array UInt8)),
      openWith .ordinary #[] {} (fun _ => ⟨6, 1000⟩) = .opened w ∧ w.pipeline.Run h s ∧ h.length = 2 ∧
      s.Returns := by
  have valid := WriterOptions.validate_default .ordinary
  have opened := openWith_array (fun _ => DeflateCompressor.mk 6 1000) valid Machine.hosts_default
  have run : (Pipeline.new (settings {} 1 valid) [DeflateCompressor.mk 6 1000]
    ((#[] : Array UInt8) ++ Frame.header 6)).Run _ _ := Pipeline.Run.start
  have asked := run.request .close ⟨.ok 0, rfl⟩
  have ending := asked.step (show Pipeline.step? _ .owner = some _ from rfl)
  exact ⟨_, _, _, opened, ending, rfl, (calls_return opened ending).2.2.2.1⟩

end Writer

end ParallelGzip
