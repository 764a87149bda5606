import ParallelGzip.Compressor.Scripted
import ParallelGzip.Proofs.Opening
import ParallelGzip.Proofs.Pipeline.Calls
import ParallelGzip.Proofs.Pipeline.Replay
import ParallelGzip.Proofs.Pipeline.Slot

set_option autoImplicit false

/-! # Failures: no failure is swallowed

A call that ends a member returns without an error only if nothing ever goes wrong with an entry up
to its end, the first error that a call returns is the first that was left in the slot, and no call
returns it again. `Writer.failures_surface` is the main statement; before it, mishaps are tied to
the entries they are about, and outcomes to the phases of the owner. -/

namespace ParallelGzip

variable {κ ω : Type}

/-! ## What has gone wrong, and with which entry -/

/-- Whether an entry is a block. -/
def Entry.isBlock : Entry → Bool
  | block _ _ _ => true
  | memberEnd _ => false

/-- Whether something went wrong with entry `p`: on the block with this number, counted over blocks
    only, or while the sequencer was writing this entry. -/
def Mishap.Concerns (entries : List Entry) (p : Nat) : Mishap → Prop
  | blockFailed number _ | blockPanicked number =>
    number = (entries.take p).countP Entry.isBlock ∧
      ∃ data dictionary, entries[p]? = some (.block number data dictionary)
  | sinkFailed index _ | sinkPanicked index => p = index

/-- The entry that the sequencer was writing. -/
def Mishap.index? : Mishap → Option Nat
  | sinkFailed index _ | sinkPanicked index => some index
  | _ => none

/-- Whether the sequencer has stopped taking entries. -/
def SequencerPhase.Stopped : SequencerPhase → Prop
  | recording _ | cancelling | closing _ | exited => True
  | _ => False

namespace Pipeline

/-! ## Where the sequencer stops -/

section Index

variable [BlockCompressor κ] [Sink ω] {start s s' : Pipeline κ ω} {h : History κ ω}

omit [BlockCompressor κ] in
theorem index_le_of_sequencerMove (move : s.SequencerMove s') :
    s.sequencer.index ≤ s'.sequencer.index := by
  cases move with
  | @start rendered => cases rendered <;> exact Nat.le_refl _
  | advance phase => exact Nat.le_succ _
  | _ => exact Nat.le_refl _

theorem index_le_of_step? {party : Party} (step : s.step? party = some s') :
    s.sequencer.index ≤ s'.sequencer.index := by
  cases party with
  | owner =>
    obtain ⟨-, same, -, -⟩ := (move_of_ownerStep? step).frame
    exact Nat.le_of_eq (congrArg Sequencer.index same.symm)
  | worker i =>
    have same := (frame_of_workerStep? step).sequencer
    exact Nat.le_of_eq (congrArg Sequencer.index same.symm)
  | sequencer => exact index_le_of_sequencerMove (move_of_sequencerStep? step)

/-- The sequencer does not go back. -/
theorem Run.index_le (run : Run start h s) :
    ∀ m ∈ h, m.before.sequencer.index ≤ s.sequencer.index := by
  induction run with
  | start =>
    intro m hm
    cases hm
  | step _ step ih =>
    intro m hm
    have more := index_le_of_step? step
    rcases List.mem_append.1 hm with earlier | last
    · exact Nat.le_trans (ih m earlier) more
    · obtain rfl := List.mem_singleton.1 last
      exact more
  | @request _ s r _ _ ih =>
    intro m hm
    obtain ⟨phase, after⟩ := request_frame s r
    have same : (s.request r).sequencer = s.sequencer := by rw [after]
    rw [same]
    rcases List.mem_append.1 hm with earlier | last
    · exact ih m earlier
    · obtain rfl := List.mem_singleton.1 last
      exact Nat.le_refl _

omit [BlockCompressor κ] in
/-- A sequencer that has stopped stays where it is. -/
theorem stopped_of_move (move : s.SequencerMove s') (stopped : s.sequencer.phase.Stopped) :
    s'.sequencer.index = s.sequencer.index ∧ s'.sequencer.phase.Stopped := by
  cases move with
  | leave | fail | record | cancel | closeLane | exit => exact ⟨rfl, trivial⟩
  | receive phase | start phase | finish phase | write phase | interrupted phase | flush phase
  | advance phase =>
    rw [phase] at stopped
    exact stopped.elim

omit [BlockCompressor κ] in
theorem index?_of_sinkMishap? {mishap : Mishap} (mishap? : s.sinkMishap? = some mishap) :
    mishap.index? = some s.sequencer.index := by
  unfold sinkMishap? at mishap?
  repeat' split at mishap?
  all_goals cases mishap?
  all_goals rfl

omit [BlockCompressor κ] in
theorem stopped_of_sinkMishap? (move : s.SequencerMove s') {mishap : Mishap}
    (mishap? : s.sinkMishap? = some mishap) :
    s'.sequencer.index = s.sequencer.index ∧ s'.sequencer.phase.Stopped := by
  constructor
  · cases move with
    | @start rendered => cases rendered <;> rfl
    | advance phase => simp [sinkMishap?, phase] at mishap?
    | _ => rfl
  · cases move.reports with
    | meets found found? before after =>
      rw [after]
      trivial
    | leaves failure none | neither none =>
      rw [mishap?] at none
      cases none

omit [Sink ω] in
theorem index?_of_workerMishap {i : Nat} {mishap : Mishap}
    (mishap? : s.lanes[i]?.bind Lane.mishap? = some mishap) : mishap.index? = none := by
  obtain ⟨lane, -, hlane⟩ := Option.bind_eq_some_iff.1 mishap?
  unfold Lane.mishap? at hlane
  repeat' split at hlane
  all_goals cases hlane
  all_goals rfl

/-- The sequencer does not go on behind a mishap: it has stopped at the entry the mishap is
    about. -/
theorem Run.index_of_mishap (run : Run start h s) {mishap : Mishap} {index : Nat}
    (hmishap : mishap ∈ h.mishaps) (index? : mishap.index? = some index) :
    s.sequencer.index = index ∧ s.sequencer.phase.Stopped := by
  induction run with
  | start => cases hmishap
  | @step h s s' party _ step ih =>
    rw [History.mishaps_concat] at hmishap
    rcases List.mem_append.1 hmishap with earlier | now
    · obtain ⟨before, stopped⟩ := ih earlier
      cases party with
      | owner =>
        rw [(move_of_ownerStep? step).frame.2.1]
        exact ⟨before, stopped⟩
      | worker i =>
        rw [(frame_of_workerStep? step).sequencer]
        exact ⟨before, stopped⟩
      | sequencer =>
        obtain ⟨same, still⟩ := stopped_of_move (move_of_sequencerStep? step) stopped
        exact ⟨same.trans before, still⟩
    · have mishap? := Option.mem_toList.1 now
      cases party with
      | owner => cases mishap?
      | worker i =>
        rw [index?_of_workerMishap mishap?] at index?
        cases index?
      | sequencer =>
        obtain ⟨same, stopped⟩ :=
          stopped_of_sinkMishap? (move_of_sequencerStep? step) mishap?
        rw [index?_of_sinkMishap? mishap?, Option.some.injEq] at index?
        exact ⟨same.trans index?, stopped⟩
  | @request h s r _ _ ih =>
    rw [History.mishaps_concat] at hmishap
    rcases List.mem_append.1 hmishap with earlier | now
    · obtain ⟨phase, after⟩ := request_frame s r
      rw [after]
      exact ih earlier
    · cases Option.mem_toList.1 now

/-- A mishap of the sink, whenever it happens, is not about an entry that is done. -/
theorem Run.index_le_of_mishap {h₁ h₂ : History κ ω} {m : Moment κ ω}
    (run : Run start (h₁ ++ m :: h₂) s) {mishap : Mishap} {index : Nat}
    (hmishap : mishap ∈ History.mishaps (h₁ ++ m :: h₂)) (index? : mishap.index? = some index) :
    m.before.sequencer.index ≤ index := by
  have hm : m ∈ h₁ ++ m :: h₂ := List.mem_append_right _ List.mem_cons_self
  rw [← (run.index_of_mishap hmishap index?).1]
  exact run.index_le m hm

end Index

/-! ## Blocks by their number -/

/-- Blocks are numbered in their order. -/
structure Numbered (h : History κ ω) (s : Pipeline κ ω) : Prop where
  blocks : s.owner.blocks = h.entries.countP Entry.isBlock
  number : ∀ (p number : Nat) (data dictionary : Bytes),
    h.entries[p]? = some (.block number data dictionary) →
      number = (h.entries.take p).countP Entry.isBlock

/-- The owner counts the blocks it submits, and numbers them by this count. -/
theorem blocks_of_ownerMove {s s' : Pipeline κ ω} (move : s.OwnerMove s') (h : History κ ω) :
    (History.entries (h ++ [⟨s, .step .owner, s'⟩]) = h.entries ∧
        s'.owner.blocks = s.owner.blocks) ∨
      (∃ next, History.entries (h ++ [⟨s, .step .owner, s'⟩]) = h.entries ++ [.memberEnd next] ∧
        s'.owner.blocks = s.owner.blocks) ∨
      ∃ data dictionary, History.entries (h ++ [⟨s, .step .owner, s'⟩]) =
          h.entries ++ [.block s.owner.blocks data dictionary] ∧
        s'.owner.blocks = s.owner.blocks + 1 := by
  have same : s'.owner.submitted = s.owner.submitted → _ := History.entries_of_submitted_eq h
  have more : ∀ entry, s.submission? = some entry →
      s'.owner.submitted = s.owner.submitted + 1 → _ := fun entry =>
    History.entries_of_submitted_succ h
  cases move with
  | send submission? turn worker room =>
    rw [more _ submission? (ownerAfterSending_submitted submission?)]
    unfold Pipeline.submission? at submission?
    unfold ownerAfterSending
    split at submission?
    · next rest total phase =>
      cases submission?
      exact .inr (.inr ⟨_, _, rfl, rfl⟩)
    · next next phase =>
      cases submission?
      exact .inr (.inl ⟨next, rfl, rfl⟩)
    · cases submission?
  | _ => exact .inl ⟨same rfl, rfl⟩

namespace Numbered

variable {h : History κ ω} {s s' : Pipeline κ ω} {m : Moment κ ω}

theorem of_eq (numbered : s.Numbered h) (entries : History.entries (h ++ [m]) = h.entries)
    (blocks : s'.owner.blocks = s.owner.blocks) : s'.Numbered (h ++ [m]) := by
  refine ⟨?_, ?_⟩
  · rw [blocks, entries]
    exact numbered.blocks
  · rw [entries]
    exact numbered.number

theorem of_concat {entry : Entry} (numbered : s.Numbered h)
    (entries : History.entries (h ++ [m]) = h.entries ++ [entry])
    (blocks : s'.owner.blocks = s.owner.blocks + [entry].countP Entry.isBlock)
    (number : ∀ number data dictionary, entry = .block number data dictionary →
      number = s.owner.blocks) : s'.Numbered (h ++ [m]) := by
  refine ⟨?_, ?_⟩
  · rw [blocks, entries, List.countP_append, numbered.blocks]
  · intro p found data dictionary hp
    rw [entries] at hp ⊢
    rcases Nat.lt_or_ge p h.entries.length with hlt | hge
    · rw [List.getElem?_append_left hlt] at hp
      rw [List.take_append_of_le_length (Nat.le_of_lt hlt)]
      exact numbered.number p found data dictionary hp
    · obtain ⟨hlast, hentry⟩ := List.getElem?_eq_some_iff.1 hp
      rw [List.length_append, List.length_singleton] at hlast
      obtain rfl : p = h.entries.length := by omega
      rw [List.getElem_concat_length rfl] at hentry
      rw [List.take_left, ← numbered.blocks]
      exact number found data dictionary hentry

end Numbered

theorem Run.numbered [BlockCompressor κ] [Sink ω] {settings : Settings} {compressors : List κ}
    {sink : ω} {h : History κ ω} {s : Pipeline κ ω}
    (run : Run (Pipeline.new settings compressors sink) h s) : s.Numbered h := by
  induction run with
  | start => exact ⟨rfl, nofun⟩
  | @step h s s' party _ step ih =>
    cases party with
    | owner =>
      rcases blocks_of_ownerMove (move_of_ownerStep? step) h with
        ⟨entries, blocks⟩ | ⟨next, entries, blocks⟩ | ⟨data, dictionary, entries, blocks⟩
      · exact ih.of_eq entries blocks
      · exact ih.of_concat entries blocks nofun
      · refine ih.of_concat entries blocks ?_
        intro number data dictionary same
        cases same
        rfl
    | worker i =>
      refine ih.of_eq (History.entries_concat_of_none h rfl) ?_
      rw [(frame_of_workerStep? step).owner]
    | sequencer =>
      refine ih.of_eq (History.entries_concat_of_none h rfl) ?_
      rw [(move_of_sequencerStep? step).frame.2]
  | @request h s r _ _ ih =>
    obtain ⟨phase, after⟩ := request_frame s r
    refine ih.of_eq (History.entries_concat_of_none h rfl) ?_
    rw [after]

/-- There is one block with each number. -/
theorem eq_of_number {entries : List Entry} {p q number : Nat} {data dictionary : Bytes}
    {data' dictionary' : Bytes} (hp : number = (entries.take p).countP Entry.isBlock)
    (hpblock : entries[p]? = some (.block number data dictionary))
    (hq : number = (entries.take q).countP Entry.isBlock)
    (hqblock : entries[q]? = some (.block number data' dictionary')) : p = q := by
  -- behind a block the count is larger than its number
  have more : ∀ {p q : Nat} {data dictionary : Bytes},
      number = (entries.take p).countP Entry.isBlock →
      entries[p]? = some (.block number data dictionary) →
      number = (entries.take q).countP Entry.isBlock → ¬p < q := by
    intro p q data dictionary hp hblock hq hlt
    have hnext : (entries.take (p + 1)).countP Entry.isBlock = number + 1 := by
      rw [List.take_add_one, hblock, List.countP_append, ← hp]
      rfl
    have hle : (entries.take (p + 1)).countP Entry.isBlock ≤
        (entries.take q).countP Entry.isBlock :=
      (List.take_prefix_take_left (Nat.succ_le_of_lt hlt)).sublist.countP_le
    omega
  have hpq := more hp hpblock hq
  have hqp := more hq hqblock hp
  omega

section Concerns

variable [BlockCompressor κ] [Sink ω] {settings : Settings} {compressors : List κ} {sink : ω}
  {s : Pipeline κ ω}

/-- The sink is asked for something only under an entry that the sequencer has taken. -/
theorem Ordered.lt_of_sinkMishap? {h : History κ ω} {mishap : Mishap}
    (ordered : s.Ordered compressors h) (nonempty : compressors ≠ [])
    (mishap? : s.sinkMishap? = some mishap) : s.sequencer.index < h.entries.length := by
  have taken := ordered.taken_length
  have hle := ordered.taken_length_le nonempty
  unfold sinkMishap? at mishap?
  split at mishap?
  · next phase =>
    rw [phase, SequencerPhase.Took] at taken
    omega
  · next phase =>
    rw [phase, SequencerPhase.Took] at taken
    omega
  · cases mishap?

/-- Every mishap is about an entry that has been submitted. -/
theorem Run.exists_concerns {h : History κ ω} (nonempty : compressors ≠ [])
    (run : Run (Pipeline.new settings compressors sink) h s) {mishap : Mishap}
    (hmishap : mishap ∈ h.mishaps) :
    ∃ p, p < h.entries.length ∧ mishap.Concerns h.entries p := by
  obtain ⟨m, hm, mishap?⟩ := List.mem_filterMap.1 hmishap
  have block : ∀ number, mishap.number? = some number →
      ∃ p, p < h.entries.length ∧ number = (h.entries.take p).countP Entry.isBlock ∧
        ∃ data dictionary, h.entries[p]? = some (.block number data dictionary) := by
    intro number number?
    obtain ⟨p, data, dictionary, hp, -⟩ := run.of_workerMishap hm mishap? number?
    exact ⟨p, (List.getElem?_eq_some_iff.1 hp).1, run.numbered.number p number data dictionary hp,
      data, dictionary, hp⟩
  have written : ∀ index, mishap.index? = some index → index < h.entries.length := by
    intro index index?
    obtain ⟨h₁, h₂, rfl⟩ := List.append_of_mem hm
    have before := run.split.1.ordered
    rw [History.entries_append, List.length_append]
    unfold Moment.mishap? at mishap?
    split at mishap?
    · rw [index?_of_workerMishap mishap?] at index?
      cases index?
    · have hlt := before.lt_of_sinkMishap? nonempty mishap?
      rw [index?_of_sinkMishap? mishap?, Option.some.injEq] at index?
      omega
    · cases mishap?
  cases mishap with
  | blockFailed number cause => exact block number rfl
  | blockPanicked number => exact block number rfl
  | sinkFailed index cause => exact ⟨index, written index rfl, rfl⟩
  | sinkPanicked index => exact ⟨index, written index rfl, rfl⟩

/-- A mishap, whenever it happens, is not about an entry that is done at some moment. -/
theorem Run.le_of_concerns {h₁ h₂ : History κ ω} {m : Moment κ ω} (nonempty : compressors ≠ [])
    (run : Run (Pipeline.new settings compressors sink) (h₁ ++ m :: h₂) s) {mishap : Mishap}
    {p : Nat} (hmishap : mishap ∈ History.mishaps (h₁ ++ m :: h₂))
    (concerns : mishap.Concerns (History.entries (h₁ ++ m :: h₂)) p) :
    m.before.sequencer.index ≤ p := by
  have block : ∀ number, mishap.number? = some number →
      number = ((History.entries (h₁ ++ m :: h₂)).take p).countP Entry.isBlock →
      (∃ data dictionary,
        (History.entries (h₁ ++ m :: h₂))[p]? = some (.block number data dictionary)) →
      m.before.sequencer.index ≤ p := by
    rintro number number? hcount ⟨data, dictionary, hp⟩
    obtain ⟨m', hm', mishap?⟩ := List.mem_filterMap.1 hmishap
    obtain ⟨q, data', dictionary', hq, fails⟩ := run.of_workerMishap hm' mishap? number?
    obtain rfl := eq_of_number hcount hp (run.numbered.number q number _ _ hq) hq
    -- what is done has a rendering, but there is none of the block that failed
    have before := run.split.1.ordered
    by_contra hlt
    have hle := before.taken_length.le
    have made := before.rendering_of_taken nonempty (List.getElem?_eq_getElem (i := p) (by omega))
    rw [History.entries_append, rendering_append _ (lt_length_of_rendering made), made] at fails
    cases fails
  cases mishap with
  | blockFailed number cause => exact block number rfl concerns.1 concerns.2
  | blockPanicked number => exact block number rfl concerns.1 concerns.2
  | sinkFailed index cause =>
    obtain rfl : p = index := concerns
    exact run.index_le_of_mishap hmishap rfl
  | sinkPanicked index =>
    obtain rfl : p = index := concerns
    exact run.index_le_of_mishap hmishap rfl

end Concerns

/-! ## What a call comes to -/

/-- How a call can return: everything it had to submit is submitted, the end of the member is done,
    or everybody is gone. -/
inductive OwnerReturns (s : Pipeline κ ω) (result : Except Error Nat) : Prop
  | submittedNothing (phase : s.owner.phase = .checking (.submit []))
      (result_eq : result = .ok 0)
  | submitted (rest : Bytes) (total : Nat) (phase : s.owner.phase = .submitting rest total)
      (result_eq : result = .ok total)
  | flushed (target : Nat) (phase : s.owner.phase = .waiting target false)
      (done : target ≤ s.sequenced) (result_eq : result = .ok 0)
  | reported (failed : Bool) (phase : s.owner.phase = .reporting failed)
      (result_eq : result = s.closingResult failed)

theorem OwnerMove.returns {s s' : Pipeline κ ω} {result : Except Error Nat}
    (move : s.OwnerMove s') (ready : s'.owner.phase = .ready result) : s.OwnerReturns result := by
  cases move with
  | submitNothing phase =>
    cases ready
    exact .submittedNothing phase rfl
  | finishFlush phase done =>
    cases ready
    exact .flushed _ phase done rfl
  | report phase =>
    cases ready
    exact .reported _ phase rfl
  | send submission? =>
    dsimp only at ready
    rcases phase_ownerAfterSending submission? with
      ⟨rest, total, phase, after | ⟨later, after⟩⟩ | ⟨next, -, after⟩
    · rw [after] at ready
      cases ready
      exact .submitted rest total phase rfl
    · rw [after] at ready
      cases ready
    · rw [after] at ready
      cases ready
  | _ => cases ready

section Outcomes

variable [BlockCompressor κ] [Sink ω] {h : History κ ω} {s s' : Pipeline κ ω}

omit [BlockCompressor κ] [Sink ω] in
/-- When everybody is gone, nobody is left to carry a failure to the slot. -/
theorem not_carried_of_reporting (linked : s.Linked) {failed : Bool}
    (phase : s.owner.phase = .reporting failed) (failure : Error) : ¬s.Carried failure := by
  have closed := linked.owner
  rw [Owner.Consistent, phase] at closed
  rintro (recording | recording)
  · obtain ⟨lane, hlane, worker⟩ := List.mem_map.1 recording
    obtain ⟨i, hi⟩ := List.getElem?_of_mem hlane
    have joined := linked.joined i lane hi
    rw [Owner.Joined, phase, worker] at joined
    cases joined closed
  · have exited : s.sequencer.phase = .exited := by
      refine linked.joinedSequencer ?_
      rw [Owner.JoinedSequencer, phase]
      exact closed
    rw [exited] at recording
    cases recording

/-- When everybody is gone, the call returns the failure that was left in the slot first; or nothing
    has gone wrong, and all entries are done. -/
theorem closingResult_eq (linked : s.Linked) (alarmed : s.Alarmed) (reported : s.Reported h)
    {failed : Bool} (phase : s.owner.phase = .reporting failed) :
    (∃ failure, h.recorded.head? = some failure ∧ s.closingResult failed = .error failure) ∨
      (h.mishaps = [] ∧ failed = false ∧ s.closingResult failed = .ok 0) := by
  have unsettled : ¬s.Settled := by
    rintro ⟨⟨result, ready⟩, -⟩
    rw [phase] at ready
    cases ready
  have slot := reported.slot unsettled
  cases failure : s.failure with
  | some left =>
    refine .inl ⟨left, slot.symm.trans failure, ?_⟩
    simp only [closingResult, failure]
  | none =>
    have calm : ¬s.Raised := by
      rintro (raised | settled)
      · rw [failure] at raised
        cases raised
      · exact unsettled settled
    have unharmed : failed = false := by
      cases failed with
      | false => rfl
      | true =>
        refine absurd (alarmed.failed ?_) calm
        rw [phase]
        rfl
    have sound : s.sequencer.panicked = false := by
      cases panicked : s.sequencer.panicked with
      | false => rfl
      | true =>
        rcases alarmed.panicked panicked with ⟨left, recording⟩ | raised
        · exact absurd (.inr recording) (not_carried_of_reporting linked phase left)
        · exact absurd raised calm
    refine .inr ⟨?_, unharmed, ?_⟩
    · by_contra some
      rcases reported.pending some with left | ⟨left, carried⟩
      · rw [failure, eq_comm, List.head?_eq_none_iff] at slot
        exact left slot
      · exact not_carried_of_reporting linked phase left carried
    · exact closingResult_eq_ok_iff.2 ⟨failure, unharmed, sound, rfl⟩

/-- A closed writer whose last call has returned: everybody is gone. -/
structure AtRest (s : Pipeline κ ω) : Prop where
  closed : s.owner.closed = true
  returned : s.Returned
  workers : ∀ lane ∈ s.lanes, lane.worker = .exited
  sequencer : s.sequencer.phase = .exited

omit [BlockCompressor κ] [Sink ω] in
theorem Settled.atRest (settled : s.Settled) (linked : s.Linked) : s.AtRest where
  closed := settled.2
  returned := settled.1
  workers := (linked.exited settled.1 settled.2).1
  sequencer := (linked.exited settled.1 settled.2).2

/-- Nobody can take a step when everybody is gone. -/
theorem AtRest.step?_eq_none (rest : s.AtRest) (party : Party) : s.step? party = none := by
  obtain ⟨result, ready⟩ := rest.returned
  cases party with
  | owner => simp only [step?, Pipeline.ownerStep?, ready]
  | sequencer => simp only [step?, Pipeline.sequencerStep?, rest.sequencer]
  | worker i =>
    simp only [step?, Pipeline.workerStep?]
    cases hlane : s.lanes[i]? with
    | none => rfl
    | some lane => simp only [Lane.step?, rest.workers lane (List.mem_of_getElem? hlane)]

theorem Settled.step?_eq_none (settled : s.Settled) (linked : s.Linked) (party : Party) :
    s.step? party = none :=
  (settled.atRest linked).step?_eq_none party

/-- What is closed stays closed. -/
theorem Run.closed_of_closed {start : Pipeline κ ω} (run : Run start h s)
    (closed : start.owner.closed = true) : s.owner.closed = true := by
  induction run with
  | start => exact closed
  | @step _ s s' party _ step ih =>
    cases party with
    | owner =>
      cases after : s'.owner.closed with
      | true => rfl
      | false =>
        exact (Linked.open_of_ownerMove (move_of_ownerStep? step) after).1.symm.trans ih
    | worker i => rwa [(frame_of_workerStep? step).owner]
    | sequencer => rwa [(move_of_sequencerStep? step).frame.2]
  | request r _ _ ih =>
    obtain ⟨phase, after⟩ := request_frame _ r
    rwa [after]

/-- A writer whose last call has returned an error is closed. -/
theorem Run.closed_of_error {settings : Settings} {compressors : List κ} {sink : ω}
    (run : Run (Pipeline.new settings compressors sink) h s) {error : Error}
    (failed : s.owner.phase = .ready (.error error)) : s.owner.closed = true := by
  induction run with
  | start => cases failed
  | @step _ s s' party run step ih =>
    cases party with
    | owner =>
      have move := move_of_ownerStep? step
      cases move.returns failed with
      | submittedNothing _ result_eq | submitted _ _ _ result_eq | flushed _ _ _ result_eq =>
        cases result_eq
      | reported _ phase =>
        -- it has been closed since it began to let go of the queues
        have consistent := run.linked.owner
        rw [Owner.Consistent, phase] at consistent
        exact (Run.start.step step).closed_of_closed consistent
    | worker i =>
      rw [(frame_of_workerStep? step).owner] at failed ⊢
      exact ih failed
    | sequencer =>
      rw [(move_of_sequencerStep? step).frame.2] at failed ⊢
      exact ih failed
  | @request _ s r _ _ _ =>
    cases closed : s.owner.closed with
    | true =>
      rw [request_of_closed closed]
      exact closed
    | false =>
      -- a request to an open writer has still to be carried out
      rw [request_of_open closed] at failed
      cases failed

/-- What a closed writer answers, however often it is asked. -/
theorem Run.of_settled {start : Pipeline κ ω} (run : Run start h s) (settled : start.Settled)
    (linked : start.Linked) :
    s.Settled ∧ s.Linked ∧
      ∀ m ∈ h, ∃ r, m.act = .request r ∧ m.outcome? = some r.answerClosed := by
  induction run with
  | start => exact ⟨settled, linked, fun m hm => by cases hm⟩
  | step _ step ih =>
    rw [ih.1.step?_eq_none ih.2.1] at step
    cases step
  | @request h s r _ returned ih =>
    obtain ⟨before, linked, answers⟩ := ih
    have after := request_of_closed before.2 r
    refine ⟨?_, linked.request returned r, ?_⟩
    · rw [after]
      exact ⟨⟨_, rfl⟩, before.2⟩
    · intro m hm
      rcases List.mem_append.1 hm with earlier | now
      · exact answers m earlier
      · obtain rfl := List.mem_singleton.1 now
        refine ⟨r, rfl, ?_⟩
        simp only [after, Moment.outcome?, own]

/-- Nothing more goes wrong in a closed writer whose call has returned. -/
theorem Run.mishaps_eq_nil_of_settled {start : Pipeline κ ω} (run : Run start h s)
    (settled : start.Settled) (linked : start.Linked) : h.mishaps = [] := by
  rw [History.mishaps, List.filterMap_eq_nil_iff]
  intro m hm
  obtain ⟨r, act, -⟩ := (run.of_settled settled linked).2.2 m hm
  simp only [Moment.mishap?, act]

/-- A call returns by a step of the owner, or at once because the writer is closed. -/
theorem Run.returns_of_outcome? {start : Pipeline κ ω} {m : Moment κ ω} {result : Except Error Nat}
    (run : Run start h s) (hm : m ∈ h) (outcome? : m.outcome? = some result) :
    (m.before.OwnerMove m.after ∧ m.after.owner.phase = .ready result) ∨
      ∃ r, m.act = .request r ∧ m.before.Settled ∧ m.after.Settled := by
  rcases run.act_of_mem hm with ⟨party, act, step⟩ | ⟨r, act, returned, after⟩
  · cases party with
    | worker i => simp only [Moment.outcome?, act, reduceCtorEq] at outcome?
    | sequencer => simp only [Moment.outcome?, act, reduceCtorEq] at outcome?
    | owner => exact .inl ⟨move_of_ownerStep? step, Moment.phase_of_outcome? outcome?⟩
  · cases closed : m.before.owner.closed with
    | false =>
      -- a request to an open writer has still to be carried out
      rw [request_of_open closed] at after
      simp [Moment.outcome?, act, after, own] at outcome?
    | true =>
      refine .inr ⟨r, act, ⟨returned, closed⟩, ?_⟩
      rw [after, request_of_closed closed]
      exact ⟨⟨_, rfl⟩, closed⟩

end Outcomes

section Surface

variable [BlockCompressor κ] [Sink ω] {settings : Settings} {compressors : List κ} {sink : ω}
  {s : Pipeline κ ω}

/-- A call that ends a member and returns without an error has submitted the end of the member, all
    entries so far are done, and it submits nothing more. -/
theorem Run.done_of_ok {h₁ h₂ h₃ : History κ ω} {call m : Moment κ ω} {r : Request} {n : Nat}
    (nonempty : compressors ≠ [])
    (run : Run (Pipeline.new settings compressors sink) (h₁ ++ call :: h₂ ++ m :: h₃) s)
    (request? : call.request? = some r) (alone : History.requests (h₂ ++ [m]) = [])
    (ends : ∀ data, r.call ≠ .submit data) (outcome? : m.outcome? = some (.ok n)) :
    (∃ next, h₂.entries.getLast? = some (.memberEnd next)) ∧
      (History.entries (h₁ ++ call :: h₂)).length ≤ m.before.sequencer.index ∧
      m.before.submission? = none := by
  have before := run.split.1
  have linked := before.linked
  rw [History.requests_append, List.append_eq_nil_iff] at alone
  have carries := before.carries_since request? alone.1
  obtain ⟨move, ready⟩ : m.before.OwnerMove m.after ∧ m.after.owner.phase = .ready (.ok n) := by
    have hm : m ∈ h₁ ++ call :: h₂ ++ m :: h₃ := List.mem_append_right _ List.mem_cons_self
    refine (run.returns_of_outcome? hm outcome?).resolve_right ?_
    rintro ⟨r', act, -⟩
    simp [History.requests, Moment.request?, act] at alone
  rw [before.ordered.entries_length, ← linked.sequenced]
  rw [Carries] at carries
  have consistent := linked.owner
  rw [Owner.Consistent] at consistent
  cases move.returns ready with
  | submittedNothing phase =>
    rw [phase] at carries
    exact absurd carries.symm (ends _)
  | submitted rest total phase =>
    rw [phase] at carries
    obtain ⟨data, hdata⟩ := carries
    exact absurd hdata (ends data)
  | flushed target phase done =>
    rw [phase] at carries consistent
    rw [consistent.2] at done
    exact ⟨carries.2, done, by simp only [Pipeline.submission?, phase]⟩
  | reported failed phase result_eq =>
    rw [phase] at carries
    have alarmed := before.alarmed nonempty
    rcases closingResult_eq linked alarmed before.reported phase with
      ⟨failure, -, error⟩ | ⟨-, unharmed, -⟩
    · rw [error] at result_eq
      cases result_eq
    · refine ⟨carries.2 unharmed, alarmed.done ?_, by simp only [Pipeline.submission?, phase]⟩
      rw [phase]
      exact unharmed

/-- A call that ends a member and returns without an error has submitted the end of the member, and
    nothing ever goes wrong with an entry up to it. -/
theorem Run.of_ok {h₁ h₂ h₃ : History κ ω} {call m : Moment κ ω} {r : Request} {n : Nat}
    (nonempty : compressors ≠ [])
    (run : Run (Pipeline.new settings compressors sink) (h₁ ++ call :: h₂ ++ m :: h₃) s)
    (request? : call.request? = some r) (alone : History.requests (h₂ ++ [m]) = [])
    (ends : ∀ data, r.call ≠ .submit data) (outcome? : m.outcome? = some (.ok n)) :
    (∃ next, h₂.entries.getLast? = some (.memberEnd next)) ∧
      ∀ mishap ∈ History.mishaps (h₁ ++ call :: h₂ ++ m :: h₃), ∀ p,
        mishap.Concerns (History.entries (h₁ ++ call :: h₂ ++ m :: h₃)) p →
          (History.entries (h₁ ++ call :: h₂)).length ≤ p := by
  obtain ⟨last, done, -⟩ := run.done_of_ok nonempty request? alone ends outcome?
  refine ⟨last, ?_⟩
  intro mishap hmishap p concerns
  exact Nat.le_trans done (run.le_of_concerns nonempty hmishap concerns)

/-- A closed writer whose call has returned has returned an error, or nothing has gone wrong. -/
theorem Run.error_of_settled {h : History κ ω} (nonempty : compressors ≠ [])
    (run : Run (Pipeline.new settings compressors sink) h s) (settled : s.Settled) :
    (∃ m ∈ h, ∃ failure, m.outcome? = some (.error failure)) ∨ h.mishaps = [] := by
  induction run with
  | start => cases settled.2
  | @step h s s' party run step ih =>
    have unsettled : ¬s.Settled := by
      intro before
      rw [before.step?_eq_none run.linked] at step
      cases step
    cases party with
    | worker i =>
      rw [Settled, Returned, (frame_of_workerStep? step).owner] at settled
      exact absurd settled unsettled
    | sequencer =>
      rw [Settled, Returned, (move_of_sequencerStep? step).frame.2] at settled
      exact absurd settled unsettled
    | owner =>
      have move := move_of_ownerStep? step
      obtain ⟨⟨result, ready⟩, closed⟩ := settled
      cases Linked.stage_of_move run.linked.owner move with
      | stillOpen before after =>
        rw [closed] at after
        cases after
      | report failed result' phase after =>
        cases move.returns ready with
        | reported failed' phase' result_eq =>
          have outcome? : (Moment.mk s (.step .owner) s').outcome? = some result := by
            simp only [Moment.outcome?, ready]
          rcases closingResult_eq run.linked (run.alarmed nonempty) run.reported phase' with
            ⟨failure, -, error⟩ | ⟨calm, -, -⟩
          · refine .inl ⟨_, List.mem_append_right _ List.mem_cons_self, failure, ?_⟩
            rw [outcome?, result_eq, error]
          · refine .inr ?_
            rw [History.mishaps_concat, calm]
            rfl
        | submittedNothing other | submitted _ _ other | flushed _ other =>
          rw [phase] at other
          cases other
      | begins failed before after phase | closeLane k failed lane before phase
      | closed k failed before phase | join k failed lane before phase
      | joined k failed before phase | joinSequencer failed before phase =>
        rw [phase] at ready
        cases ready
  | @request h s r run returned ih =>
    have closed : s.owner.closed = true := by
      obtain ⟨phase, after⟩ := request_frame s r
      rw [after] at settled
      exact settled.2
    rcases ih ⟨returned, closed⟩ with ⟨m, hm, error⟩ | calm
    · exact .inl ⟨m, List.mem_append_left _ hm, error⟩
    · refine .inr ?_
      rw [History.mishaps_concat, calm]
      rfl

/-- If something goes wrong, the first error that a call returns is the first that was left in the
    slot. -/
theorem Run.of_first_error {h₁ h₂ : History κ ω} {m : Moment κ ω} {failure : Error}
    (nonempty : compressors ≠ [])
    (run : Run (Pipeline.new settings compressors sink) (h₁ ++ m :: h₂) s)
    (harmed : History.mishaps (h₁ ++ m :: h₂) ≠ [])
    (first : ∀ m' ∈ h₁, ∀ failure, m'.outcome? ≠ some (.error failure))
    (outcome? : m.outcome? = some (.error failure)) :
    h₁.recorded.head? = some failure ∧ m.after.Settled := by
  have before := run.split.1
  have hm : m ∈ h₁ ++ m :: h₂ := List.mem_append_right _ List.mem_cons_self
  rcases run.returns_of_outcome? hm outcome? with ⟨move, ready⟩ | ⟨r, act, settled, after⟩
  · cases move.returns ready with
    | submittedNothing _ result_eq | submitted _ _ _ result_eq | flushed _ _ _ result_eq =>
      cases result_eq
    | reported failed phase result_eq =>
      constructor
      · rcases closingResult_eq before.linked (before.alarmed nonempty) before.reported phase with
          ⟨left, head?, error⟩ | ⟨-, -, calm⟩
        · rw [error] at result_eq
          cases result_eq
          exact head?
        · rw [calm] at result_eq
          cases result_eq
      · exact ⟨⟨_, ready⟩, run.split.2.closed_of_error ready⟩
  · -- a writer that has closed without an error is calm, before and behind
    exfalso
    rcases before.error_of_settled nonempty settled with ⟨m', hm', left, error⟩ | calm
    · exact first m' hm' left error
    · refine harmed ?_
      have now : m.mishap? = none := by simp only [Moment.mishap?, act]
      have behind := run.suffix.mishaps_eq_nil_of_settled after run.split.2.linked
      rw [History.mishaps] at behind
      rw [History.mishaps_append, calm, List.nil_append, History.mishaps,
        List.filterMap_cons_none now, behind]

end Surface

end Pipeline

namespace Writer

/-- No failure is swallowed. Every mishap is about an entry that has been submitted. A call that
    ends a member and returns without an error has submitted the end of the member, and nothing ever
    goes wrong with an entry up to it. If something goes wrong, the first error that a call returns
    is the first that was left in the slot, it reports a mishap, and from then on the writer answers
    as a closed one does. -/
theorem failures_surface [BlockCompressor κ] [Sink ω] {machine : Machine} {sink : ω}
    {options : WriterOptions} {compressor : Nat → κ} {w : Writer κ ω} {h : History κ ω}
    {s : Pipeline κ ω}
    (opened : openWith machine sink options compressor = .opened w) (run : w.pipeline.Run h s) :
    (∀ mishap ∈ h.mishaps, ∃ p, p < h.entries.length ∧ mishap.Concerns h.entries p) ∧
      (∀ (h₁ : History κ ω) (call : Moment κ ω) (h₂ : History κ ω) (m : Moment κ ω)
          (h₃ : History κ ω) (r : Request) (n : Nat),
        h = h₁ ++ call :: h₂ ++ m :: h₃ → call.request? = some r →
        History.requests (h₂ ++ [m]) = [] → (∀ data, r.call ≠ .submit data) →
        m.outcome? = some (.ok n) →
          (∃ next, h₂.entries.getLast? = some (.memberEnd next)) ∧
          ∀ mishap ∈ h.mishaps, ∀ p, mishap.Concerns h.entries p →
            (History.entries (h₁ ++ call :: h₂)).length ≤ p) ∧
      ∀ (h₁ : History κ ω) (m : Moment κ ω) (h₂ : History κ ω) (failure : Error),
        h = h₁ ++ m :: h₂ → h.mishaps ≠ [] →
        (∀ m' ∈ h₁, ∀ failure, m'.outcome? ≠ some (.error failure)) →
        m.outcome? = some (.error failure) →
          h₁.recorded.head? = some failure ∧
          (∃ mishap ∈ h₁.mishaps, mishap.failure = failure) ∧
          (∀ number cause, (∀ mishap ∈ h.mishaps, mishap = .blockFailed number cause) →
            failure = cause.inBlock number) ∧
          ∀ m' ∈ h₂, ∃ r, m'.request? = some r ∧ m'.outcome? = some r.answerClosed := by
  obtain ⟨n, valid⟩ := exists_validate_of_openWith opened
  obtain ⟨sink', header, start⟩ := pipeline_of_openWith valid opened
  rw [start] at run
  have nonempty := compressors_ne_nil valid compressor
  refine ⟨fun mishap => run.exists_concerns nonempty, ?_, ?_⟩
  · rintro h₁ call h₂ m h₃ r n rfl request? alone ends outcome?
    exact run.of_ok nonempty request? alone ends outcome?
  · rintro h₁ m h₂ failure rfl harmed first outcome?
    obtain ⟨head?, settled⟩ := run.of_first_error nonempty harmed first outcome?
    have recorded : failure ∈ h₁.recorded := List.mem_of_head? head?
    obtain ⟨mishap, hmishap, reports⟩ := run.split.1.reported.recorded failure recorded
    refine ⟨head?, ⟨mishap, hmishap, reports⟩, ?_, ?_⟩
    · intro number cause only
      have hall : mishap ∈ History.mishaps (h₁ ++ m :: h₂) := by
        rw [History.mishaps_append]
        exact List.mem_append_left _ hmishap
      rw [← reports, only mishap hall]
      rfl
    · intro m' hm'
      have linked := run.split.2.linked
      obtain ⟨r, act, answer⟩ := (run.suffix.of_settled settled linked).2.2 m' hm'
      exact ⟨r, by simp only [Moment.request?, act], answer⟩

/-- A writer in memory with a compressor that fails on short blocks ends a member without blocks,
    and then fails on a block of one byte, which is entry 1. The call that closes the writer returns
    that, and a call to submit more finds it closed. -/
theorem failures_surface_short_block :
    ∃ (w : Writer ScriptedCompressor (Array UInt8))
      (h h' : History ScriptedCompressor (Array UInt8))
      (m : Moment ScriptedCompressor (Array UInt8)) (s : Pipeline ScriptedCompressor (Array UInt8)),
      openWith .ordinary #[] {} (fun _ => ⟨.dictated, 0, 0⟩) = .opened w ∧
      w.pipeline.Run (h ++ m :: h') s ∧
      History.requests (h ++ m :: h') = [.flushMember, .submit [7], .close, .submit [8]] ∧
      History.mishaps (h ++ m :: h') = [.blockFailed 0 (.backend "short fake block")] ∧
      (∃ p, p < (History.entries (h ++ m :: h')).length ∧
        (Mishap.blockFailed 0 (.backend "short fake block")).Concerns
          (History.entries (h ++ m :: h')) p) ∧
      (∀ p, (Mishap.blockFailed 0 (.backend "short fake block")).Concerns
        (History.entries (h ++ m :: h')) p → 1 ≤ p) ∧
      m.outcome? = some (.error ((CodecError.backend "short fake block").inBlock 0)) ∧
      ∀ m' ∈ h', ∃ r, m'.request? = some r ∧ m'.outcome? = some r.answerClosed := by
  have valid := WriterOptions.validate_default .ordinary
  have opened := openWith_array (fun _ => ScriptedCompressor.mk .dictated 0 0) valid
    Machine.hosts_default
  let start := Pipeline.new (settings {} 1 (WriterOptions.validate_default .ordinary))
    [ScriptedCompressor.mk .dictated 0 0] ((#[] : Array UInt8) ++ Frame.header 6)
  -- the end of the first member is written
  let flushes : List Act := [.request .flushMember, .step .owner, .step .owner] ++
    List.replicate 3 (.step (.worker 0)) ++ List.replicate 6 (.step .sequencer)
  -- the worker fails, and the owner finds the failure
  let fails : List Act := [.step .owner, .request (.submit [7]), .step .owner, .step .owner] ++
    List.replicate 5 (.step (.worker 0)) ++ [.request .close] ++ List.replicate 4 (.step .owner) ++
    List.replicate 2 (.step (.worker 0)) ++ List.replicate 2 (.step .owner) ++
    List.replicate 3 (.step .sequencer) ++ [.step .owner]
  let acts : List Act := flushes ++ fails ++ [.step .owner, .request (.submit [8])]
  obtain ⟨s, replays⟩ := Option.isSome_iff_exists.1
    (show (start.replay? acts).isSome = true by decide +kernel)
  let all := start.retrace acts
  have run : Pipeline.Run start all s := Pipeline.Run.start.replay replays
  obtain ⟨concerns, ends, first⟩ := failures_surface opened run
  have mishaps : History.mishaps all = [.blockFailed 0 (.backend "short fake block")] := by
    decide +kernel
  have failed : Mishap.blockFailed 0 (.backend "short fake block") ∈ History.mishaps all := by
    rw [mishaps]
    exact List.mem_singleton_self _
  -- the call to close is the first that fails
  have fine : ((all.take 34).all fun m => m.outcome?.all Except.isOk) = true := by decide +kernel
  have noError : ∀ m ∈ all.take 34, ∀ failure, m.outcome? ≠ some (.error failure) := by
    intro m hm failure fails
    have found := List.all_eq_true.1 fine m hm
    rw [fails] at found
    cases found
  obtain ⟨m, split, -, outcome⟩ := Pipeline.exists_moment
    (show all[34]?.bind Moment.outcome? =
      some (.error ((CodecError.backend "short fake block").inBlock 0)) by decide +kernel)
  obtain ⟨-, -, -, closed⟩ := first _ _ _ _ split (List.ne_nil_of_mem failed) noError outcome
  -- the call that ends the first member has succeeded
  let rest := (start.request .flushMember).retrace acts.tail
  obtain ⟨flushed, there, front, success⟩ := Pipeline.exists_moment
    (show rest[11]?.bind Moment.outcome? = some (.ok 0) by decide +kernel)
  have parts : all = [] ++ ⟨start, .request .flushMember, start.request .flushMember⟩ ::
      rest.take 11 ++ flushed :: rest.drop 12 :=
    congrArg (_ :: ·) there
  have noRequest : History.requests (rest.take 11 ++ [flushed]) = [] := by
    rw [← front]
    exact List.isEmpty_iff.1 (by decide +kernel)
  have noSubmit : ∀ data, Request.flushMember.call ≠ .submit data := by
    intro data same
    cases same
  obtain ⟨-, behind⟩ := ends _ _ _ _ _ .flushMember 0 parts rfl noRequest noSubmit success
  have one : (History.entries ([] ++ (⟨start, .request .flushMember, start.request .flushMember⟩ ::
      rest.take 11))).length = 1 := by
    decide +kernel
  refine ⟨_, all.take 34, all.drop 35, m, s, opened, ?_⟩
  rw [← split]
  refine ⟨run, Pipeline.requests_retrace replays, mishaps, concerns _ failed, ?_, outcome, closed⟩
  intro p about
  rw [← one]
  exact behind _ failed p about

end Writer

end ParallelGzip
