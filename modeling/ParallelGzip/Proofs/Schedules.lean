import ParallelGzip.Proofs.Chain

set_option autoImplicit false

/-! # Schedules: who does what, and when, does not show

A writer submits the entries of the plan for what it is asked, one after the other, up to the call
in which it finds a failure (`Pipeline.KeepsTo`). How many workers there are, how long the queues
are and in which order the parties take their steps has no part in the plan. So with compressors
that compute a function of block and dictionary, two writers that are asked for the same leave the
same in their sinks, and it is what a chain would have written: `Writer.schedules_agree`. Where the
chain stops at a block that cannot be compressed, how much of it a sink holds does depend on the
order of the steps, and both writers return an error. -/

namespace ParallelGzip

open BlockCompressor (Computes renderBy_of_rendering rendering_ne_none)

variable {κ ω : Type}

/-! ## A writer keeps to its plan -/

/-- How what an owner is asked for goes with what it has submitted, wherever it is. Once it has found
    a failure nothing is said of the rest. -/
def Owner.KeepsTo (o : Owner) (level blockSize : Nat) (submitted asked : Plan) : Prop :=
  match o.phase with
  | .ready result => (o.closed = false ∨ ∃ n, result = .ok n) → asked = submitted
  | .checking call => asked = submitted.ask level blockSize call
  | .submitting rest _ => rest ≠ [] ∧ asked = submitted.submit blockSize rest
  | .ending next => asked = submitted.memberEnd next
  | .waiting _ _ => asked = submitted
  | .cancelling => True
  | .closing _ failed | .joining _ failed | .joiningSequencer failed | .reporting failed =>
    failed = false → asked = submitted

namespace Pipeline

/-- What has been submitted. -/
def submittedPlan (h : History κ ω) (s : Pipeline κ ω) : Plan :=
  ⟨h.entries, s.owner.previous, s.owner.blocks⟩

/-- What has been asked for. -/
def askedPlan (h : History κ ω) (s : Pipeline κ ω) : Plan :=
  Plan.asked s.settings.level s.settings.blockSize h.requests

/-- What has been submitted is the beginning of what has been asked for, and the owner knows what is
    left. -/
structure KeepsTo (h : History κ ω) (s : Pipeline κ ω) : Prop where
  isPrefix : h.entries <+: (s.askedPlan h).entries
  owner : s.owner.KeepsTo s.settings.level s.settings.blockSize (s.submittedPlan h)
    (s.askedPlan h)

/-- A closed writer answers these requests with an error. -/
def Refused (requests : List Request) : Prop := ∀ r ∈ requests, r.answerClosed = .error .closed

theorem Refused.append {first second : List Request} (refused : Refused (first ++ second)) :
    Refused first ∧ Refused second :=
  ⟨fun r hr => refused r (List.mem_append_left _ hr),
    fun r hr => refused r (List.mem_append_right _ hr)⟩

theorem refused_program {calls : List Request} (unclosed : ∀ r ∈ calls, r.call.closes = false) :
    Refused (calls ++ [.finish]) := by
  intro r hr
  rcases List.mem_append.1 hr with before | last
  · have opened := unclosed r before
    cases r with
    | submit data | flushMember => rfl
    | close | finish | drop => cases opened
  · obtain rfl := List.mem_singleton.1 last
    rfl

/-- Only the last request can be one to close. -/
theorem any_closes_dropLast {h : History κ ω} {calls : List Request} {r : Request}
    (requests : h.requests = calls ++ [r]) (unclosed : ∀ r ∈ calls, r.call.closes = false) :
    (h.requests.dropLast.any fun r => r.call.closes) = false := by
  rw [requests, List.dropLast_concat, List.any_eq_false]
  intro r hr
  rw [unclosed r hr]
  exact Bool.false_ne_true

namespace KeepsTo

variable {h : History κ ω} {s s' : Pipeline κ ω}

theorem new (settings : Settings) (compressors : List κ) (sink : ω) :
    KeepsTo [] (Pipeline.new settings compressors sink) :=
  ⟨List.prefix_rfl, fun _ => rfl⟩

/-- What leaves the owner alone, submits nothing and asks for nothing leaves the plan alone. -/
theorem of_eq {h' : History κ ω} (keeps : s.KeepsTo h) (settings : s'.settings = s.settings)
    (owner : s'.owner = s.owner) (entries : h'.entries = h.entries)
    (requests : h'.requests = h.requests) : s'.KeepsTo h' := by
  obtain ⟨isPrefix, keeps⟩ := keeps
  rw [askedPlan] at isPrefix keeps
  rw [submittedPlan] at keeps
  refine ⟨?_, ?_⟩
  · rw [askedPlan, settings, entries, requests]
    exact isPrefix
  · rw [askedPlan, submittedPlan, settings, owner, entries, requests]
    exact keeps

/-- A move of the owner that submits nothing changes only how what is left is written down. -/
theorem of_owner (keeps : s.KeepsTo h) (settings : s'.settings = s.settings)
    (submitted : s'.owner.submitted = s.owner.submitted)
    (previous : s'.owner.previous = s.owner.previous) (blocks : s'.owner.blocks = s.owner.blocks)
    (owner : ∀ asked, s.owner.KeepsTo s.settings.level s.settings.blockSize (s.submittedPlan h)
        asked →
      s'.owner.KeepsTo s.settings.level s.settings.blockSize (s.submittedPlan h) asked) :
    s'.KeepsTo (h ++ [⟨s, .step .owner, s'⟩]) := by
  have entries := History.entries_of_submitted_eq h submitted
  have asked : s'.askedPlan (h ++ [⟨s, .step .owner, s'⟩]) = s.askedPlan h := by
    rw [askedPlan, History.requests_step, settings]
    rfl
  have same : s'.submittedPlan (h ++ [⟨s, .step .owner, s'⟩]) = s.submittedPlan h := by
    rw [submittedPlan, entries, previous, blocks]
    rfl
  refine ⟨?_, ?_⟩
  · rw [asked, entries]
    exact keeps.isPrefix
  · rw [asked, same, settings]
    exact owner _ keeps.owner

/-- Sending the next entry of the plan. -/
theorem send {entry : Entry} (keeps : s.KeepsTo h) (submission? : s.submission? = some entry)
    (settings : s'.settings = s.settings) (owner : s'.owner = s.ownerAfterSending) :
    s'.KeepsTo (h ++ [⟨s, .step .owner, s'⟩]) := by
  have entries : History.entries (h ++ [⟨s, .step .owner, s'⟩]) = h.entries ++ [entry] :=
    History.entries_of_submitted_succ h submission?
      (owner ▸ ownerAfterSending_submitted submission?)
  have asked : s'.askedPlan (h ++ [⟨s, .step .owner, s'⟩]) = s.askedPlan h := by
    rw [askedPlan, History.requests_step, settings]
    rfl
  obtain ⟨-, keeps⟩ := keeps
  unfold Pipeline.submission? at submission?
  unfold Owner.KeepsTo at keeps
  unfold ownerAfterSending at owner
  split at submission?
  · next rest total phase =>
    cases submission?
    rw [phase] at keeps owner
    obtain ⟨nonempty, keeps⟩ := keeps
    rw [Plan.submit_of_ne_nil s.settings.blockSize_pos nonempty] at keeps
    have now : s'.submittedPlan (h ++ [⟨s, .step .owner, s'⟩]) =
        (s.submittedPlan h).block (rest.take s.settings.blockSize) := by
      rw [submittedPlan, entries, owner]
      rfl
    rw [← now] at keeps
    refine ⟨?_, ?_⟩
    · rw [asked, keeps]
      exact Plan.entries_isPrefix_ask s.settings.level _ (s'.submittedPlan _) (.submit _)
    · rw [asked, settings, Owner.KeepsTo, owner]
      by_cases all : rest.drop s.settings.blockSize = []
      · rw [all, Plan.submit_nil] at keeps
        simp only [all, if_true]
        exact fun _ => keeps
      · simp only [all, if_false]
        exact ⟨all, keeps⟩
  · next next phase =>
    cases submission?
    rw [phase] at keeps owner
    have now : s'.submittedPlan (h ++ [⟨s, .step .owner, s'⟩]) =
        (s.submittedPlan h).memberEnd next := by
      rw [submittedPlan, entries, owner]
      rfl
    refine ⟨?_, ?_⟩
    · rw [asked, keeps, ← now]
      exact List.prefix_rfl
    · rw [asked, settings, Owner.KeepsTo, owner, now]
      exact keeps
  · cases submission?

theorem ownerMove (keeps : s.KeepsTo h) (move : s.OwnerMove s')
    (consistent : s.owner.Consistent) : s'.KeepsTo (h ++ [⟨s, .step .owner, s'⟩]) := by
  cases move with
  | send submission? => exact keeps.send submission? rfl rfl
  | giveUp => exact keeps.of_owner rfl rfl rfl rfl fun _ _ => trivial
  | cancel => exact keeps.of_owner rfl rfl rfl rfl fun _ _ => nofun
  | submitNothing phase =>
    refine keeps.of_owner rfl rfl rfl rfl ?_
    intro asked keeps _
    rw [Owner.KeepsTo, phase] at keeps
    exact keeps.trans (Plan.submit_nil _ _)
  | beginSubmit phase nonempty =>
    refine keeps.of_owner rfl rfl rfl rfl ?_
    intro asked keeps
    rw [Owner.KeepsTo, phase] at keeps
    exact ⟨nonempty, keeps⟩
  | finishFlush phase | finishClose phase =>
    refine keeps.of_owner rfl rfl rfl rfl ?_
    intro asked keeps _
    rw [Owner.KeepsTo, phase] at keeps
    exact keeps
  | report phase =>
    rw [Owner.Consistent, phase] at consistent
    refine keeps.of_owner rfl rfl rfl rfl ?_
    intro asked keeps succeeds
    rw [Owner.KeepsTo, phase] at keeps
    refine keeps ?_
    -- only an owner that has not found a failure can return without an error
    rcases succeeds with opened | ⟨n, ok⟩
    · rw [consistent] at opened
      cases opened
    · exact (closingResult_eq_ok_iff.1 ok).2.1
  | beginFlush phase | beginClose phase | closeLane phase | closed phase | join phase
  | joined phase | joinSequencer phase =>
    refine keeps.of_owner rfl rfl rfl rfl ?_
    intro asked keeps
    rw [Owner.KeepsTo, phase] at keeps
    exact keeps

theorem request (keeps : s.KeepsTo h) (returned : s.Returned) {r : Request}
    (refused : r.answerClosed = .error .closed) :
    (s.request r).KeepsTo (h ++ [⟨s, .request r, s.request r⟩]) := by
  obtain ⟨result, phase⟩ := returned
  have entries : History.entries (h ++ [⟨s, .request r, s.request r⟩]) = h.entries :=
    History.entries_concat_of_none h rfl
  have requests := History.requests_request h s (s.request r) r
  obtain ⟨isPrefix, keeps⟩ := keeps
  have grows : h.entries <+: ((s.askedPlan h).ask s.settings.level s.settings.blockSize
      r.call).entries := isPrefix.trans (Plan.entries_isPrefix_ask _ _ _ _)
  cases closed : s.owner.closed with
  | false =>
    rw [request_of_open closed] at entries requests ⊢
    refine ⟨?_, ?_⟩
    · rw [askedPlan, requests, Plan.asked_concat, entries]
      exact grows
    · rw [Owner.KeepsTo, phase] at keeps
      have same := keeps (.inl closed)
      rw [askedPlan, submittedPlan, requests, Plan.asked_concat, entries]
      exact congrArg (Plan.ask _ _ · r.call) same
  | true =>
    rw [request_of_closed closed] at entries requests ⊢
    refine ⟨?_, ?_⟩
    · rw [askedPlan, requests, Plan.asked_concat, entries]
      exact grows
    · rintro (opened | ⟨n, ok⟩)
      · cases closed.symm.trans opened
      · rw [refused] at ok
        cases ok

end KeepsTo

section Run

variable [BlockCompressor κ] [Sink ω] {settings : Settings} {compressors : List κ} {sink : ω}
  {h : History κ ω} {s : Pipeline κ ω} {code : Bytes → Bytes → CompressResult}

/-- Every run keeps to the plan, whatever goes wrong. -/
theorem Run.keepsTo (run : Run (Pipeline.new settings compressors sink) h s)
    (refused : Refused h.requests) : s.KeepsTo h := by
  induction run with
  | start => exact .new settings compressors sink
  | @step h s s' party run step ih =>
    rw [History.requests_step] at refused
    have before := ih refused
    have requests := History.requests_step h s s' party
    cases party with
    | owner => exact before.ownerMove (move_of_ownerStep? step) run.linked.owner
    | worker i =>
      have frame := frame_of_workerStep? step
      exact before.of_eq frame.settings frame.owner (History.entries_concat_of_none h rfl) requests
    | sequencer =>
      obtain ⟨settings, owner⟩ := (move_of_sequencerStep? step).frame
      exact before.of_eq settings owner (History.entries_concat_of_none h rfl) requests
  | @request h s r run returned ih =>
    rw [History.requests_request] at refused
    exact (ih refused.append.1).request returned (refused.append.2 r (List.mem_singleton.2 rfl))

/-- A writer that is going to report success has met nothing that went wrong, and has seen all
    entries done. -/
theorem Run.done_of_report (nonempty : compressors ≠ [])
    (run : Run (Pipeline.new settings compressors sink) h s) {failed : Bool}
    (phase : s.owner.phase = .reporting failed) {n : Nat} (ok : s.closingResult failed = .ok n) :
    h.mishaps = [] ∧ h.entries.length ≤ s.sequencer.index := by
  have alarmed := run.alarmed nonempty
  rcases closingResult_eq run.linked alarmed run.reported phase with
    ⟨failure, -, error⟩ | ⟨calm, unharmed, -⟩
  · cases error.symm.trans ok
  · have done : s.owner.submitted ≤ s.sequenced := by
      refine alarmed.done ?_
      rw [phase]
      exact unharmed
    refine ⟨calm, ?_⟩
    rw [run.ordered.entries_length]
    exact run.linked.sequenced ▸ done

/-- A call that has closed the writer and returned without an error has met nothing that went wrong,
    and has seen all entries done. -/
theorem Run.done_of_closed (nonempty : compressors ≠ [])
    (run : Run (Pipeline.new settings compressors sink) h s) (refused : Refused h.requests)
    (closed : s.owner.closed = true) {n : Nat} (ready : s.owner.phase = .ready (.ok n)) :
    h.mishaps = [] ∧ h.entries.length ≤ s.sequencer.index := by
  cases run with
  | start => cases closed
  | @step h s _ party run step =>
    have unsettled : ¬s.Settled := by
      intro before
      rw [before.step?_eq_none run.linked] at step
      cases step
    cases party with
    | worker i =>
      have owner := (frame_of_workerStep? step).owner
      exact absurd ⟨⟨_, owner ▸ ready⟩, owner ▸ closed⟩ unsettled
    | sequencer =>
      have owner := (move_of_sequencerStep? step).frame.2
      exact absurd ⟨⟨_, owner ▸ ready⟩, owner ▸ closed⟩ unsettled
    | owner =>
      have move := move_of_ownerStep? step
      have consistent := run.linked.owner
      cases move with
      | @report failed phase =>
        obtain ⟨calm, done⟩ := run.done_of_report nonempty phase (OwnerPhase.ready.inj ready)
        refine ⟨?_, ?_⟩
        · rw [History.mishaps_concat, calm]
          rfl
        · exact Nat.le_trans (Nat.le_of_eq (congrArg List.length
            (History.entries_of_submitted_eq h rfl))) done
      -- no other move that returns is one of a writer that closes
      | submitNothing phase =>
        rw [Owner.Consistent, phase] at consistent
        cases consistent.symm.trans closed
      | finishFlush phase =>
        rw [Owner.Consistent, phase] at consistent
        cases consistent.1.symm.trans closed
      | send submission? =>
        have opened := Linked.open_of_submission? consistent submission?
        rw [← Linked.closed_ownerAfterSending] at opened
        cases opened.symm.trans closed
      | _ => cases ready
  | @request h s r run returned =>
    cases before : s.owner.closed with
    | false =>
      rw [request_of_open before] at ready
      cases ready
    | true =>
      -- a closed writer refuses
      rw [request_of_closed before] at ready
      have answer := refused r (List.mem_filterMap.2 ⟨_, List.mem_append_right _
        (List.mem_singleton.2 rfl), rfl⟩)
      cases answer.symm.trans (OwnerPhase.ready.inj ready)

/-- If the chain of the requests does not stop, nothing goes wrong on a sink that works. -/
theorem Run.mishaps_eq_nil_of_chain {chain : Chain} (nonempty : compressors ≠ [])
    (computes : ∀ c ∈ compressors, Computes c code)
    (run : Run (Pipeline.new settings compressors sink) h s) (refused : Refused h.requests)
    (works : h.SinkWorks)
    (goes : Chain.carryOut code settings.level settings.blockSize h.requests = .ok chain) :
    h.mishaps = [] := by
  have planned := (run.keepsTo refused).isPrefix
  rw [askedPlan, run.fits.1] at planned
  rw [← Chain.along_asked] at goes
  refine run.mishaps_eq_nil_of_rendering works fun p live => ?_
  refine rendering_ne_none nonempty computes ?_ live
  intro entry mem
  exact Chain.exists_renderBy_of_along goes entry (planned.subset mem)

/-- At every moment the sink holds, behind what it held at first, a beginning of what the chain
    writes. -/
theorem Run.contents_isPrefix [RecordingSink ω] (nonempty : compressors ≠ [])
    (computes : ∀ c ∈ compressors, Computes c code)
    (run : Run (Pipeline.new settings compressors sink) h s) (refused : Refused h.requests) :
    ∃ written, RecordingSink.contents s.sink = RecordingSink.contents sink ++ written ∧
      written <+: (Chain.reached
        (Chain.carryOut code settings.level settings.blockSize h.requests)).output := by
  have planned := (run.keepsTo refused).isPrefix
  rw [askedPlan, run.fits.1] at planned
  obtain ⟨made, part, -, hmade, contents, hpart, -⟩ := run.contents_eq nonempty
  obtain ⟨later, split⟩ := planned
  -- what has become of an entry that has been submitted has become of it in the plan
  have found : ∀ p rendered, rendering compressors h.entries p = some rendered →
      (Plan.asked settings.level settings.blockSize h.requests).entries[p]?.bind
        (Entry.renderBy code) = some rendered := by
    intro p rendered result
    rw [← split, List.getElem?_append_left (lt_length_of_rendering result)]
    exact renderBy_of_rendering computes result
  refine ⟨_, contents.trans (List.append_assoc _ _ _), ?_⟩
  rw [← Chain.along_asked]
  refine Chain.written_isPrefix ?_ (hpart.imp_right ?_)
  · intro p hp
    have result := hmade p hp
    rw [List.getElem?_eq_getElem hp] at result ⊢
    exact found p _ result
  · rintro ⟨rendered, result, isPrefix⟩
    exact ⟨rendered, found _ _ result, isPrefix⟩

/-- What has been submitted when a call that closes the writer has returned without an error is what
    has been planned, and it has been made into what is in the sink. -/
theorem Run.made_of_closed [RecordingSink ω] (nonempty : compressors ≠ [])
    (run : Run (Pipeline.new settings compressors sink) h s) (refused : Refused h.requests)
    (closed : s.owner.closed = true) {n : Nat} (ready : s.owner.phase = .ready (.ok n)) :
    (Plan.asked settings.level settings.blockSize h.requests).entries = h.entries ∧
      ∃ made, made.length = h.entries.length ∧
        (∀ p, p < made.length → rendering compressors h.entries p = made[p]?) ∧
        RecordingSink.contents s.sink = RecordingSink.contents sink ++ Tally.zero.stitch made := by
  obtain ⟨-, done⟩ := run.done_of_closed nonempty refused closed ready
  have owner := (run.keepsTo refused).owner
  rw [Owner.KeepsTo, ready, askedPlan, run.fits.1] at owner
  exact ⟨congrArg Plan.entries (owner (.inr ⟨n, rfl⟩)), run.contents_eq_of_done nonempty done⟩

/-- Then the chain has not stopped, and the sink holds all that it writes. -/
theorem Run.exists_chain [RecordingSink ω] (nonempty : compressors ≠ [])
    (computes : ∀ c ∈ compressors, Computes c code)
    (run : Run (Pipeline.new settings compressors sink) h s) (refused : Refused h.requests)
    (closed : s.owner.closed = true) {n : Nat} (ready : s.owner.phase = .ready (.ok n)) :
    ∃ chain, Chain.carryOut code settings.level settings.blockSize h.requests = .ok chain ∧
      RecordingSink.contents s.sink = RecordingSink.contents sink ++ chain.output := by
  obtain ⟨planned, made, count, hmade, contents⟩ :=
    run.made_of_closed nonempty refused closed ready
  have becomes : ∀ p, p < made.length →
      h.entries[p]?.bind (Entry.renderBy code) = made[p]? := by
    intro p live
    have found := hmade p live
    rw [List.getElem?_eq_getElem live] at found ⊢
    exact renderBy_of_rendering computes found
  have related := Chain.forall₂_renderBy becomes
  rw [count, List.take_length] at related
  obtain ⟨chain, goes, output, -⟩ := Chain.exists_along_of_renderBy related Chain.start
  refine ⟨chain, ?_, ?_⟩
  · rw [← Chain.along_asked, planned]
    exact goes
  · rw [contents, output]
    rfl

/-- A writer is closed once it has been asked to finish. -/
theorem Run.closed_of_finish {calls : List Request}
    (run : Run (Pipeline.new settings compressors sink) h s) (returned : s.Returned)
    (requests : h.requests = calls ++ [.finish]) : s.owner.closed = true := by
  cases closed : s.owner.closed with
  | true => rfl
  | false =>
    have asked := run.not_asked returned closed
    rw [requests, List.any_append] at asked
    simp [Request.call, Call.closes] at asked

/-- What a writer leaves that has been asked to finish, on a sink that works. -/
theorem Run.leaves_chain [RecordingSink ω] {calls : List Request} (nonempty : compressors ≠ [])
    (computes : ∀ c ∈ compressors, Computes c code)
    (run : Run (Pipeline.new settings compressors sink) h s) (works : h.SinkWorks)
    (unclosed : ∀ r ∈ calls, r.call.closes = false) (requests : h.requests = calls ++ [.finish])
    (returned : s.Returned) :
    match Chain.carryOut code settings.level settings.blockSize (calls ++ [.finish]) with
    | .ok chain =>
      (∃ k, s.result = .ok k) ∧
        RecordingSink.contents s.sink = RecordingSink.contents sink ++ chain.output
    | .error chain =>
      (∃ failure, s.result = .error failure) ∧
        ∃ written, RecordingSink.contents s.sink = RecordingSink.contents sink ++ written ∧
          written <+: chain.output := by
  have refused : Refused h.requests := by
    rw [requests]
    exact refused_program unclosed
  have closed := run.closed_of_finish returned requests
  split
  · next chain goes =>
    rw [← requests] at goes
    have calm := run.mishaps_eq_nil_of_chain nonempty computes refused works goes
    have performs := run.performs nonempty calm (any_closes_dropLast requests unclosed)
    obtain ⟨⟨k, ok⟩, -⟩ := performs.result_eq_ok returned
    obtain ⟨result, ready⟩ := returned
    refine ⟨⟨k, ok⟩, ?_⟩
    rw [Pipeline.result, ready] at ok
    obtain ⟨chain', goes', contents⟩ :=
      run.exists_chain nonempty computes refused closed (ready.trans (congrArg _ ok))
    cases goes'.symm.trans goes
    exact contents
  · next chain stops =>
    rw [← requests] at stops
    refine ⟨?_, ?_⟩
    · obtain ⟨result, ready⟩ := returned
      rw [Pipeline.result, ready]
      cases result with
      | error failure => exact ⟨failure, rfl⟩
      | ok k =>
        -- without an error the chain would not have stopped
        obtain ⟨chain', goes, -⟩ := run.exists_chain nonempty computes refused closed ready
        cases goes.symm.trans stops
    · have written := run.contents_isPrefix nonempty computes refused
      rw [stops] at written
      exact written

end Run

end Pipeline

namespace Writer

theorem computes_of_lanes [BlockCompressor κ] {n : Nat} {compressor : Nat → κ}
    {code : Bytes → Bytes → CompressResult} (computes : ∀ i < n, Computes (compressor i) code) :
    ∀ c ∈ (List.range n).map compressor, Computes c code := by
  intro c hc
  obtain ⟨i, hi, rfl⟩ := List.mem_map.1 hc
  exact computes i (List.mem_range.1 hi)

section Two

variable {κ' ω' : Type} [BlockCompressor κ] [BlockCompressor κ'] [Sink ω] [Sink ω']
  [RecordingSink ω] [RecordingSink ω'] {machine machine' : Machine}
  {options options' : WriterOptions} {n n' : Nat}
  {compressor : Nat → κ} {compressor' : Nat → κ'} {code : Bytes → Bytes → CompressResult}
  {sink held : ω} {sink' held' : ω'}

end Two

end Writer

end ParallelGzip
