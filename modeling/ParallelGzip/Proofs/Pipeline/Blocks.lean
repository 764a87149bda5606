import ParallelGzip.Proofs.Deflate.Match
import ParallelGzip.Proofs.Pipeline.Answers

set_option autoImplicit false

/-! # Blocks: what becomes of the data that is submitted

Whatever happens, the blocks that a writer submits make up the data that its calls have accepted,
and behind it perhaps some whole blocks of a call that has not come to its end. `Pipeline.Accounts`
says so of an owner that may be anywhere in carrying out a call, or that has given up in the middle
of one. `Entry.Follows` says what a block brings with it: its number, and the end of the block before
it in the member. `Writer.blocks_follow` puts both together. -/

namespace ParallelGzip

variable {κ ω : Type}

/-! ## The data of entries and of calls -/

namespace Entry

/-- The data of a block; the end of a member has none. -/
def data : Entry → Bytes
  | block _ data _ => data
  | memberEnd _ => []

/-- The data of all blocks, over all members. -/
def joined (entries : List Entry) : Bytes := entries.flatMap data

/-- The block that comes last, empty behind the end of a member. -/
def lastBlock (entries : List Entry) : Bytes := (entries.getLast?.map data).getD []

/-- The open member together with an entry. -/
def onto (member : Bytes) : Entry → Bytes
  | block _ data _ => member ++ data
  | memberEnd _ => []

/-- The data of the open member. -/
def openMember (entries : List Entry) : Bytes := entries.foldl onto []

theorem joined_concat (entries : List Entry) (entry : Entry) :
    joined (entries ++ [entry]) = joined entries ++ entry.data := by
  rw [joined, List.flatMap_append, List.flatMap_singleton]
  rfl

theorem lastBlock_concat (entries : List Entry) (entry : Entry) :
    lastBlock (entries ++ [entry]) = entry.data := by
  rw [lastBlock, List.getLast?_concat]
  rfl

/-- The last block is the end of the open member. -/
theorem lastBlock_isSuffix (entries : List Entry) : lastBlock entries <:+ openMember entries := by
  rcases List.eq_nil_or_concat entries with rfl | ⟨before, entry, rfl⟩
  · exact List.suffix_rfl
  · rw [List.concat_eq_append, lastBlock_concat, openMember, List.foldl_append]
    cases entry with
    | block number data dictionary => exact List.suffix_append _ _
    | memberEnd next => exact List.suffix_rfl

/-- How a block goes with the entries before it: there is something in it, it is not too large, its
    number is theirs, and its dictionary is as much as a match can reach of the last block, so that
    whoever has decoded the member so far has it. -/
def Follows (blockSize : Nat) (before : List Entry) : Entry → Prop
  | block number data dictionary =>
    (data ≠ [] ∧ data.length ≤ blockSize) ∧ number = before.countP isBlock ∧
      (dictionary <:+ lastBlock before ∧
        dictionary.length = min 32768 (lastBlock before).length) ∧
      dictionary <:+ openMember before
  | memberEnd _ => True

end Entry

open Entry (joined lastBlock openMember)

/-- The data of a call; only a call that submits has any. -/
def Call.payload : Call → Bytes
  | submit data => data
  | flush | close => []

/-- The data that a call has accepted. -/
def Request.acceptedBy (r : Request) : Except Error Nat → Bytes
  | .ok _ => r.call.payload
  | .error _ => []

/-- The data that requests have accepted, given what they have come to. -/
def Request.accepted (requests : List Request) (outcomes : List (Except Error Nat)) : Bytes :=
  (requests.zip outcomes).flatMap fun answered => answered.1.acceptedBy answered.2

/-- The data accepted so far. -/
def History.accepted (h : History κ ω) : Bytes := Request.accepted h.requests h.outcomes

namespace Request

variable {requests : List Request} {outcomes : List (Except Error Nat)}

/-- A request that has not come to anything yet has not accepted anything. -/
theorem accepted_of_pending (answered : outcomes.length = requests.length) (r : Request) :
    accepted (requests ++ [r]) outcomes = accepted requests outcomes := by
  have same : (requests ++ [r]).zip (outcomes ++ []) = requests.zip outcomes ++ [r].zip [] :=
    List.zip_append answered.symm
  rw [List.append_nil, List.zip_nil_right, List.append_nil] at same
  rw [accepted, accepted, same]

theorem accepted_concat (answered : outcomes.length = requests.length) (r : Request)
    (outcome : Except Error Nat) :
    accepted (requests ++ [r]) (outcomes ++ [outcome]) =
      accepted requests outcomes ++ r.acceptedBy outcome := by
  rw [accepted, List.zip_append answered.symm, List.flatMap_append]
  simp [accepted]

/-- If no request has failed, all data has been accepted. -/
theorem accepted_of_ok (answered : outcomes.length = requests.length)
    (fine : ∀ outcome ∈ outcomes, ∃ n, outcome = .ok n) :
    accepted requests outcomes = requests.flatMap fun r => r.call.payload := by
  induction requests generalizing outcomes with
  | nil => rfl
  | cons r requests ih =>
    cases outcomes with
    | nil => cases answered
    | cons outcome outcomes =>
      obtain ⟨n, rfl⟩ := fine outcome List.mem_cons_self
      have later := ih (Nat.succ.inj answered) fun o ho => fine o (List.mem_cons_of_mem _ ho)
      rw [List.flatMap_cons, ← later]
      rfl

/-- A closed writer accepts nothing. -/
theorem acceptedBy_answerClosed (r : Request) : r.acceptedBy r.answerClosed = [] := by
  cases r <;> rfl

end Request

/-! ## How much of a call has been submitted -/

/-- Some whole blocks of the data, but not all of it unless there is nothing. -/
def PartOf (blockSize : Nat) (data part : Bytes) : Prop :=
  ∃ j, part = data.take (j * blockSize) ∧ (part = [] ∨ j * blockSize < data.length)

theorem PartOf.nil (blockSize : Nat) (data : Bytes) : PartOf blockSize data [] :=
  ⟨0, by rw [Nat.zero_mul, List.take_zero], .inl rfl⟩

/-- Of no data there is no part. -/
theorem PartOf.eq_nil {blockSize : Nat} {part : Bytes} (h : PartOf blockSize [] part) :
    part = [] := by
  obtain ⟨j, rfl, -⟩ := h
  exact List.take_nil

/-- How much of the call that is carried out has been submitted, wherever the owner is. -/
def OwnerPhase.Queued (blockSize : Nat) (call : Call) (queued : Bytes) : OwnerPhase → Prop
  | ready _ => False
  | checking call' => call' = call ∧ queued = []
  | submitting rest _ =>
    ∃ j, queued = call.payload.take (j * blockSize) ∧ rest = call.payload.drop (j * blockSize) ∧
      rest ≠ []
  | ending _ | waiting _ _ => call.payload = [] ∧ queued = []
  | cancelling => PartOf blockSize call.payload queued
  | closing _ failed | joining _ failed | joiningSequencer failed | reporting failed =>
    PartOf blockSize call.payload queued ∧ (failed = false → call.payload = [])

theorem OwnerPhase.Queued.partOf {blockSize : Nat} {call : Call} {queued : Bytes}
    {phase : OwnerPhase} (h : phase.Queued blockSize call queued) :
    PartOf blockSize call.payload queued := by
  cases phase with
  | ready => exact h.elim
  | checking =>
    rw [h.2]
    exact .nil _ _
  | submitting rest total =>
    obtain ⟨j, rfl, rfl, some⟩ := h
    refine ⟨j, rfl, .inr ?_⟩
    rw [← Nat.not_le, ← List.drop_eq_nil_iff]
    exact some
  | ending | waiting =>
    rw [h.2]
    exact .nil _ _
  | cancelling => exact h
  | closing | joining | joiningSequencer | reporting => exact h.1

namespace Pipeline

/-- What the blocks so far make up: between two calls, the data accepted so far and, in a writer that
    a call has closed by its failure, a part of the data of that call; within a call, the data
    accepted by the calls before and what has been submitted of this one. -/
inductive Accounts (h : History κ ω) (s : Pipeline κ ω) : Prop
  | between (queued : Bytes) (returned : s.Returned)
      (answered : h.outcomes.length = h.requests.length)
      (blocks : joined h.entries = h.accepted ++ queued)
      (left : queued = [] ∨ s.owner.closed = true ∧
        ∃ (k : Nat) (r : Request) (error : Error), h.requests[k]? = some r ∧
          h.outcomes[k]? = some (.error error) ∧
          PartOf s.settings.blockSize r.call.payload queued)
  | within (requests : List Request) (r : Request) (queued : Bytes)
      (asked : h.requests = requests ++ [r]) (answered : h.outcomes.length = requests.length)
      (blocks : joined h.entries = h.accepted ++ queued)
      (phase : s.owner.phase.Queued s.settings.blockSize r.call queued)

namespace Accounts

variable {h : History κ ω} {s s' : Pipeline κ ω}

theorem new (settings : Settings) (compressors : List κ) (sink : ω) :
    Accounts [] (Pipeline.new settings compressors sink) :=
  .between [] ⟨_, rfl⟩ rfl rfl (.inl rfl)

/-- What leaves the owner alone leaves the accounts alone. -/
theorem of_eq {h' : History κ ω} (accounts : s.Accounts h) (settings : s'.settings = s.settings)
    (owner : s'.owner = s.owner) (entries : h'.entries = h.entries)
    (requests : h'.requests = h.requests) (outcomes : h'.outcomes = h.outcomes) :
    s'.Accounts h' := by
  have accepted : h'.accepted = h.accepted := by
    rw [History.accepted, requests, outcomes, History.accepted]
  cases accounts with
  | between queued returned answered blocks left =>
    refine .between queued ?_ ?_ ?_ ?_
    · rw [Returned, owner]
      exact returned
    · rw [requests, outcomes, answered]
    · rw [entries, accepted, blocks]
    · rw [settings, owner, requests, outcomes]
      exact left
  | within before r queued asked answered blocks phase =>
    refine .within before r queued ?_ ?_ ?_ ?_
    · rw [requests, asked]
    · rw [outcomes, answered]
    · rw [entries, accepted, blocks]
    · rw [settings, owner]
      exact phase

section Step

variable {requests : List Request} {r : Request} {queued : Bytes}

/-- A step of the owner that does not return: what the calls have accepted stays, and what has been
    submitted goes to the call that is carried out. -/
theorem goOn (asked : h.requests = requests ++ [r]) (answered : h.outcomes.length = requests.length)
    {more : Bytes} (blocks : joined (History.entries (h ++ [⟨s, .step .owner, s'⟩])) =
      h.accepted ++ more)
    (phase : s'.owner.phase.Queued s'.settings.blockSize r.call more) :
    s'.Accounts (h ++ [⟨s, .step .owner, s'⟩]) := by
  have running : (Moment.mk s (.step .owner) s').outcome? = none := by
    refine Answers.outcome?_of_hasReturned _ ?_
    unfold hasReturned
    split
    · next result ready =>
      rw [ready] at phase
      exact phase.elim
    · rfl
  have outcomes : History.outcomes (h ++ [⟨s, .step .owner, s'⟩]) = h.outcomes := by
    rw [History.outcomes_concat, running, Option.toList_none, List.append_nil]
  refine .within requests r more ?_ ?_ ?_ phase
  · rw [History.requests_step, asked]
  · rw [outcomes, answered]
  · rw [blocks, History.accepted, History.accepted, History.requests_step, outcomes]

/-- A step of the owner with which the call returns. -/
theorem returns {outcome : Except Error Nat} (asked : h.requests = requests ++ [r])
    (answered : h.outcomes.length = requests.length) {more : Bytes}
    (blocks : joined (History.entries (h ++ [⟨s, .step .owner, s'⟩])) = h.accepted ++ more)
    (ready : s'.owner.phase = .ready outcome)
    (left : more = r.acceptedBy outcome ∨ s'.owner.closed = true ∧
      (∃ error, outcome = .error error) ∧ PartOf s'.settings.blockSize r.call.payload more) :
    s'.Accounts (h ++ [⟨s, .step .owner, s'⟩]) := by
  have outcomes : History.outcomes (h ++ [⟨s, .step .owner, s'⟩]) = h.outcomes ++ [outcome] := by
    rw [History.outcomes_concat, Moment.outcome?]
    dsimp only
    rw [ready, Option.toList_some]
  have before : h.accepted = Request.accepted requests h.outcomes := by
    rw [History.accepted, asked, Request.accepted_of_pending answered]
  have accepted : History.accepted (h ++ [⟨s, .step .owner, s'⟩]) =
      h.accepted ++ r.acceptedBy outcome := by
    rw [before, History.accepted, History.requests_step, outcomes, asked,
      Request.accepted_concat answered]
  have length : (History.outcomes (h ++ [⟨s, .step .owner, s'⟩])).length =
      (History.requests (h ++ [⟨s, .step .owner, s'⟩])).length := by
    rw [outcomes, History.requests_step, asked, List.length_append, List.length_append, answered]
    rfl
  rcases left with rfl | ⟨closed, ⟨error, rfl⟩, part⟩
  · refine .between [] ⟨_, ready⟩ length ?_ (.inl rfl)
    rw [blocks, accepted, List.append_nil]
  · refine .between more ⟨_, ready⟩ length ?_ (.inr ⟨closed, requests.length, r, error, ?_, ?_, part⟩)
    · rw [blocks, accepted]
      exact congrArg (· ++ more) (List.append_nil _).symm
    · rw [History.requests_step, asked, List.getElem?_concat_length]
    · rw [outcomes, ← answered, List.getElem?_concat_length]

/-- Sending a block or the end of a member. -/
theorem send {entry : Entry} (asked : h.requests = requests ++ [r])
    (answered : h.outcomes.length = requests.length)
    (blocks : joined h.entries = h.accepted ++ queued)
    (phase : s.owner.phase.Queued s.settings.blockSize r.call queued)
    (submission? : s.submission? = some entry) (settings : s'.settings = s.settings)
    (owner : s'.owner = s.ownerAfterSending) : s'.Accounts (h ++ [⟨s, .step .owner, s'⟩]) := by
  have more : joined (History.entries (h ++ [⟨s, .step .owner, s'⟩])) =
      h.accepted ++ (queued ++ entry.data) := by
    rw [History.entries_of_submitted_succ h submission?
      (owner ▸ ownerAfterSending_submitted submission?), Entry.joined_concat, blocks,
      List.append_assoc]
  unfold Pipeline.submission? at submission?
  unfold ownerAfterSending at owner
  split at submission?
  · next rest total submitting =>
    cases submission?
    rw [submitting] at phase owner
    obtain ⟨j, rfl, rfl, some⟩ := phase
    dsimp only [Entry.data] at more owner
    -- one more block of the data
    rw [← List.take_add, ← Nat.succ_mul] at more
    rw [List.drop_drop, ← Nat.succ_mul] at owner
    by_cases all : r.call.payload.drop ((j + 1) * s.settings.blockSize) = []
    · have ready : s'.owner.phase = .ready (.ok total) := by
        rw [owner]
        exact if_pos all
      have whole := List.take_of_length_le (List.drop_eq_nil_iff.1 all)
      exact returns asked answered more ready (.inl whole)
    · refine goOn asked answered more ?_
      rw [settings, owner]
      dsimp only
      rw [if_neg all]
      exact ⟨j + 1, rfl, rfl, all⟩
  · next next ending =>
    cases submission?
    rw [ending] at phase owner
    refine goOn asked answered more ?_
    rw [owner]
    refine ⟨phase.1, ?_⟩
    rw [phase.2]
    rfl
  · cases submission?

theorem ownerMove (accounts : s.Accounts h) (running : ¬s.Returned) (move : s.OwnerMove s')
    (consistent : s.owner.Consistent) : s'.Accounts (h ++ [⟨s, .step .owner, s'⟩]) := by
  cases accounts with
  | between queued returned => exact absurd returned running
  | within requests r queued asked answered blocks phase =>
    have same : s'.owner.submitted = s.owner.submitted →
        joined (History.entries (h ++ [⟨s, .step .owner, s'⟩])) = h.accepted ++ queued := by
      intro submitted
      rw [History.entries_of_submitted_eq h submitted, blocks]
    have part := phase.partOf
    cases move with
    | send submission? => exact send asked answered blocks phase submission? rfl rfl
    | giveUp => exact goOn asked answered (same rfl) part
    | submitNothing checking =>
      rw [checking] at phase
      obtain ⟨call, rfl⟩ := phase
      refine returns asked answered (same rfl) rfl (.inl ?_)
      rw [Request.acceptedBy, ← call]
      rfl
    | beginSubmit checking nonempty =>
      rw [checking] at phase
      obtain ⟨call, rfl⟩ := phase
      refine goOn asked answered (same rfl) ⟨0, ?_, ?_, nonempty⟩
      · rw [Nat.zero_mul, List.take_zero]
      · rw [Nat.zero_mul, List.drop_zero, ← call]
        rfl
    | beginFlush checking | beginClose checking =>
      rw [checking] at phase
      obtain ⟨call, rfl⟩ := phase
      refine goOn asked answered (same rfl) ⟨?_, rfl⟩
      rw [← call]
      rfl
    | finishFlush waiting =>
      rw [waiting] at phase
      obtain ⟨call, rfl⟩ := phase
      exact returns asked answered (same rfl) rfl (.inl call.symm)
    | finishClose waiting =>
      rw [waiting] at phase
      exact goOn asked answered (same rfl) ⟨part, fun _ => phase.1⟩
    | cancel => exact goOn asked answered (same rfl) ⟨part, nofun⟩
    | closeLane before | closed before | join before | joined before | joinSequencer before =>
      rw [before] at phase
      exact goOn asked answered (same rfl) phase
    | @report failed before =>
      rw [before] at phase
      rw [Owner.Consistent, before] at consistent
      refine returns asked answered (same rfl) rfl ?_
      cases result : s.closingResult failed with
      | error error => exact .inr ⟨consistent, ⟨error, rfl⟩, part⟩
      | ok n =>
        -- only an owner that has not found a failure can return without an error
        have nothing := phase.2 (closingResult_eq_ok_iff.1 result).2.1
        rw [nothing] at part
        exact .inl (part.eq_nil.trans nothing.symm)

end Step

theorem request (accounts : s.Accounts h) (returned : s.Returned) (r : Request) :
    (s.request r).Accounts (h ++ [⟨s, .request r, s.request r⟩]) := by
  have entries : History.entries (h ++ [⟨s, .request r, s.request r⟩]) = h.entries :=
    History.entries_concat_of_none h rfl
  have requests := History.requests_request h s (s.request r) r
  have outcomes := History.outcomes_concat h ⟨s, .request r, s.request r⟩
  cases accounts with
  | within before r' queued asked answered blocks phase =>
    obtain ⟨result, ready⟩ := returned
    rw [ready] at phase
    exact phase.elim
  | between queued _ answered blocks left =>
    cases closed : s.owner.closed with
    | false =>
      rw [request_of_open closed] at entries requests outcomes ⊢
      replace outcomes := outcomes.trans (List.append_nil _)
      have nothing : queued = [] := by
        refine left.resolve_right ?_
        rintro ⟨now, -⟩
        rw [closed] at now
        cases now
      refine .within h.requests r queued requests ?_ ?_ ⟨rfl, nothing⟩
      · rw [outcomes, answered]
      · rw [entries, blocks, History.accepted, History.accepted, requests, outcomes,
          Request.accepted_of_pending answered]
    | true =>
      rw [request_of_closed closed] at entries requests outcomes ⊢
      replace outcomes : _ = h.outcomes ++ [r.answerClosed] := outcomes
      refine .between queued ⟨_, rfl⟩ ?_ ?_ ?_
      · rw [outcomes, requests, List.length_append, List.length_append, answered]
        rfl
      · rw [entries, blocks, History.accepted, History.accepted, requests, outcomes,
          Request.accepted_concat answered, Request.acceptedBy_answerClosed, List.append_nil]
      · refine left.imp_right ?_
        rintro ⟨-, k, r', error, hk, houtcome, part⟩
        refine ⟨closed, k, r', error, ?_, ?_, part⟩
        · rw [requests, List.getElem?_append_left (List.getElem?_eq_some_iff.1 hk).1, hk]
        · rw [outcomes, List.getElem?_append_left (List.getElem?_eq_some_iff.1 houtcome).1, houtcome]

end Accounts

/-- What a block brings with it is known to the owner. -/
structure Jobs (h : History κ ω) (s : Pipeline κ ω) : Prop where
  previous : s.owner.previous = lastBlock h.entries
  accepted : s.owner.accepted = (joined h.entries).length
  follows : ∀ (p : Nat) (entry : Entry), h.entries[p]? = some entry →
    entry.Follows s.settings.blockSize (h.entries.take p)

namespace Jobs

variable {h : History κ ω} {s s' : Pipeline κ ω} {m : Moment κ ω}

theorem of_eq {h' : History κ ω} (jobs : s.Jobs h) (settings : s'.settings = s.settings)
    (previous : s'.owner.previous = s.owner.previous)
    (accepted : s'.owner.accepted = s.owner.accepted) (entries : h'.entries = h.entries) :
    s'.Jobs h' := by
  refine ⟨?_, ?_, ?_⟩
  · rw [previous, entries]
    exact jobs.previous
  · rw [accepted, entries]
    exact jobs.accepted
  · rw [settings, entries]
    exact jobs.follows

/-- The entry that the owner is about to submit goes with those before it. -/
theorem follows_of_submission? {entry : Entry} {r : Request} {queued : Bytes} (jobs : s.Jobs h)
    (numbered : s.Numbered h)
    (phase : s.owner.phase.Queued s.settings.blockSize r.call queued)
    (submission? : s.submission? = some entry) :
    entry.Follows s.settings.blockSize h.entries := by
  unfold Pipeline.submission? at submission?
  split at submission?
  · next rest total submitting =>
    cases submission?
    rw [submitting] at phase
    obtain ⟨j, -, -, some⟩ := phase
    have window := windowOf_isSuffix s.owner.previous
    rw [jobs.previous] at window ⊢
    refine ⟨⟨?_, List.length_take_le _ _⟩, numbered.blocks, ⟨window, ?_⟩,
      window.trans (Entry.lastBlock_isSuffix h.entries)⟩
    · rw [Ne, List.take_eq_nil_iff]
      have pos := s.settings.blockSize_pos
      rintro (zero | none)
      · omega
      · exact some none
    · rw [windowOf, List.length_drop]
      have : windowSize = 32768 := rfl
      omega
  · cases submission?
    trivial
  · cases submission?

theorem send {entry : Entry} (jobs : s.Jobs h) (submission? : s.submission? = some entry)
    (follows : entry.Follows s.settings.blockSize h.entries) (settings : s'.settings = s.settings)
    (owner : s'.owner = s.ownerAfterSending) : s'.Jobs (h ++ [⟨s, .step .owner, s'⟩]) := by
  have sent : s'.owner.submitted = s.owner.submitted + 1 :=
    owner ▸ ownerAfterSending_submitted submission?
  have entries := History.entries_of_submitted_succ h submission? sent
  have data : s'.owner.previous = entry.data ∧
      s'.owner.accepted = s.owner.accepted + entry.data.length := by
    rw [owner]
    unfold Pipeline.submission? at submission?
    unfold ownerAfterSending
    split at submission? <;> cases submission? <;> exact ⟨rfl, rfl⟩
  refine ⟨?_, ?_, ?_⟩
  · rw [data.1, entries, Entry.lastBlock_concat]
  · rw [data.2, entries, Entry.joined_concat, List.length_append, jobs.accepted]
  · rw [settings, entries]
    intro p found hp
    rcases Nat.lt_or_ge p h.entries.length with hlt | hge
    · rw [List.getElem?_append_left hlt] at hp
      rw [List.take_append_of_le_length (Nat.le_of_lt hlt)]
      exact jobs.follows p found hp
    · obtain ⟨hlast, hentry⟩ := List.getElem?_eq_some_iff.1 hp
      rw [List.length_append, List.length_singleton] at hlast
      obtain rfl : p = h.entries.length := by omega
      rw [List.getElem_concat_length rfl] at hentry
      rw [List.take_left, ← hentry]
      exact follows

theorem ownerMove (jobs : s.Jobs h) (move : s.OwnerMove s')
    (follows : ∀ entry, s.submission? = some entry →
      entry.Follows s.settings.blockSize h.entries) :
    s'.Jobs (h ++ [⟨s, .step .owner, s'⟩]) := by
  have same : s'.owner.submitted = s.owner.submitted → _ := History.entries_of_submitted_eq h
  cases move with
  | send submission? => exact jobs.send submission? (follows _ submission?) rfl rfl
  | _ => exact jobs.of_eq rfl rfl rfl (same rfl)

end Jobs

section Runs

variable [BlockCompressor κ] [Sink ω] {settings : Settings} {compressors : List κ} {sink : ω}
  {h : History κ ω} {s : Pipeline κ ω}

theorem Run.accounts (run : Run (Pipeline.new settings compressors sink) h s) : s.Accounts h := by
  induction run with
  | start => exact .new settings compressors sink
  | @step h s s' party run step ih =>
    cases party with
    | owner =>
      exact ih.ownerMove (not_returned_of_ownerStep? step) (move_of_ownerStep? step)
        run.linked.owner
    | worker i =>
      have frame := frame_of_workerStep? step
      refine ih.of_eq frame.settings frame.owner (History.entries_concat_of_none h rfl)
        (History.requests_step h s s' _) ?_
      exact (History.outcomes_concat _ _).trans (List.append_nil _)
    | sequencer =>
      have frame := (move_of_sequencerStep? step).frame
      refine ih.of_eq frame.1 frame.2 (History.entries_concat_of_none h rfl)
        (History.requests_step h s s' _) ?_
      exact (History.outcomes_concat _ _).trans (List.append_nil _)
  | request r run returned ih => exact ih.request returned r

theorem Run.jobs (run : Run (Pipeline.new settings compressors sink) h s) : s.Jobs h := by
  induction run with
  | start => exact ⟨rfl, rfl, nofun⟩
  | @step h s s' party run step ih =>
    cases party with
    | owner =>
      refine ih.ownerMove (move_of_ownerStep? step) ?_
      intro entry submission?
      cases run.accounts with
      | between queued returned => exact absurd returned (not_returned_of_ownerStep? step)
      | within requests r queued asked answered blocks phase =>
        exact ih.follows_of_submission? run.numbered phase submission?
    | worker i =>
      have frame := frame_of_workerStep? step
      exact ih.of_eq frame.settings (congrArg Owner.previous frame.owner)
        (congrArg Owner.accepted frame.owner) (History.entries_concat_of_none h rfl)
    | sequencer =>
      have frame := (move_of_sequencerStep? step).frame
      exact ih.of_eq frame.1 (congrArg Owner.previous frame.2)
        (congrArg Owner.accepted frame.2) (History.entries_concat_of_none h rfl)
  | @request h s r run returned ih =>
    obtain ⟨phase, after⟩ := request_frame s r
    have entries : History.entries (h ++ [⟨s, .request r, s.request r⟩]) = h.entries :=
      History.entries_concat_of_none h rfl
    rw [after] at entries ⊢
    exact ih.of_eq rfl rfl rfl entries

/-- On a writer that is open, no call has failed. -/
theorem Run.fine (run : Run (Pipeline.new settings compressors sink) h s)
    (opened : s.owner.closed = false) : ∀ outcome ∈ h.outcomes, ∃ n, outcome = .ok n := by
  induction run with
  | start => exact nofun
  | @step h s s' party run step ih =>
    intro outcome mem
    rw [History.outcomes_concat] at mem
    cases party with
    | owner =>
      have move := move_of_ownerStep? step
      have before := (Linked.open_of_ownerMove move opened).1
      rcases List.mem_append.1 mem with earlier | now
      · exact ih before outcome earlier
      · have last : (⟨s, .step .owner, s'⟩ : Moment κ ω) ∈ h ++ [⟨s, .step .owner, s'⟩] :=
          List.mem_append_right _ List.mem_cons_self
        obtain ⟨-, ready⟩ | ⟨r, act, -⟩ :=
          (run.step step).returns_of_outcome? last (Option.mem_toList.1 now)
        · cases move.returns ready with
          | submittedNothing _ result_eq | submitted _ _ _ result_eq | flushed _ _ _ result_eq =>
            exact ⟨_, result_eq⟩
          | reported failed phase =>
            have consistent := run.linked.owner
            rw [Owner.Consistent, phase] at consistent
            cases before.symm.trans consistent
        · cases act
    | worker i =>
      rw [(frame_of_workerStep? step).owner] at opened
      rcases List.mem_append.1 mem with earlier | now
      · exact ih opened outcome earlier
      · cases now
    | sequencer =>
      rw [(move_of_sequencerStep? step).frame.2] at opened
      rcases List.mem_append.1 mem with earlier | now
      · exact ih opened outcome earlier
      · cases now
  | @request h s r run returned ih =>
    have before : s.owner.closed = false := by
      obtain ⟨phase, after⟩ := request_frame s r
      rw [after] at opened
      exact opened
    intro outcome mem
    rw [History.outcomes_concat, request_of_open before] at mem
    rcases List.mem_append.1 mem with earlier | now
    · exact ih before outcome earlier
    · cases now

end Runs

/-- What comes behind the accepted data belongs to a call that has not come to its end. -/
theorem Accounts.exists_queued {h : History κ ω} {s : Pipeline κ ω} (accounts : s.Accounts h) :
    ∃ queued, joined h.entries = h.accepted ++ queued ∧
      (queued = [] ∨ ∃ (k : Nat) (r : Request), h.requests[k]? = some r ∧
        (∀ n, h.outcomes[k]? ≠ some (.ok n)) ∧
          PartOf s.settings.blockSize r.call.payload queued) := by
  cases accounts with
  | between queued returned answered blocks left =>
    refine ⟨queued, blocks, left.imp_right ?_⟩
    rintro ⟨-, k, r, error, hk, houtcome, part⟩
    refine ⟨k, r, hk, ?_, part⟩
    intro n
    rw [houtcome]
    simp
  | within requests r queued asked answered blocks phase =>
    refine ⟨queued, blocks, .inr ⟨requests.length, r, ?_, ?_, phase.partOf⟩⟩
    · rw [asked, List.getElem?_concat_length]
    · intro n
      rw [← answered, List.getElem?_eq_none (Nat.le_refl _)]
      exact nofun

/-- Between two calls an open writer has submitted all the data it has been given. -/
theorem Accounts.joined_of_open {h : History κ ω} {s : Pipeline κ ω} (accounts : s.Accounts h)
    (returned : s.Returned) (opened : s.owner.closed = false)
    (fine : ∀ outcome ∈ h.outcomes, ∃ n, outcome = .ok n) :
    joined h.entries = h.requests.flatMap fun r => r.call.payload := by
  cases accounts with
  | between queued _ answered blocks left =>
    have nothing : queued = [] := by
      refine left.resolve_right ?_
      rintro ⟨closed, -⟩
      cases opened.symm.trans closed
    rw [blocks, nothing, List.append_nil, History.accepted, Request.accepted_of_ok answered fine]
  | within requests r queued asked answered blocks phase =>
    obtain ⟨result, ready⟩ := returned
    rw [ready] at phase
    exact phase.elim

end Pipeline

namespace Writer

/-- What a writer hands to its workers, whatever it is asked for and whatever goes wrong. Every block
    has something in it and is not larger than the block size, blocks are numbered without gaps, and
    the dictionary of a block is as much as a match can reach of the block before it in the member.
    The bytes counted as taken are those of the blocks. These are the data that calls have accepted,
    and behind it at most some whole blocks of one call that has not come to its end; between two
    calls of an open writer they are all the data it has been given. -/
theorem blocks_follow [BlockCompressor κ] [Sink ω] {machine : Machine} {sink : ω}
    {options : WriterOptions} {compressor : Nat → κ} {w : Writer κ ω} {h : History κ ω}
    {s : Pipeline κ ω}
    (opened : openWith machine sink options compressor = .opened w) (run : w.pipeline.Run h s) :
    (∀ (p : Nat) (entry : Entry), h.entries[p]? = some entry →
        entry.Follows options.blockSize (h.entries.take p)) ∧
      (Writer.mk s w.threads).totalIn = (joined h.entries).length ∧
      (∃ queued, joined h.entries = h.accepted ++ queued ∧
        (queued = [] ∨ ∃ (k : Nat) (r : Request), h.requests[k]? = some r ∧
          (∀ n, h.outcomes[k]? ≠ some (.ok n)) ∧ PartOf options.blockSize r.call.payload queued)) ∧
      (s.Returned → s.owner.closed = false →
        joined h.entries = h.requests.flatMap fun r => r.call.payload) := by
  obtain ⟨n, valid⟩ := exists_validate_of_openWith opened
  obtain ⟨sink', header, start⟩ := pipeline_of_openWith valid opened
  rw [start] at run
  have blockSize : s.settings.blockSize = options.blockSize := by
    rw [run.fits.1]
    rfl
  rw [← blockSize]
  have jobs := run.jobs
  refine ⟨jobs.follows, jobs.accepted, run.accounts.exists_queued, ?_⟩
  intro returned open_
  exact run.accounts.joined_of_open returned open_ (run.fine open_)

/-- Blocks of two bytes are allowed. -/
theorem validate_pairs : ({ blockSize := 2 } : WriterOptions).validate .ordinary = .ok 1 :=
  WriterOptions.validate_eq_ok_iff.2 (by decide)

/-- A writer in memory with blocks of two bytes has been given three: there are two blocks, and the
    second has the first as dictionary. -/
theorem blocks_follow_two_blocks :
    ∃ (w : Writer ScriptedCompressor (Array UInt8))
      (h : History ScriptedCompressor (Array UInt8))
      (s : Pipeline ScriptedCompressor (Array UInt8)),
      openWith .ordinary #[] { blockSize := 2 } (fun _ => ⟨.stored, 0, 0⟩) = .opened w ∧
      w.pipeline.Run h s ∧ s.Returned ∧ s.owner.closed = false ∧
      h.entries = [.block 0 [1, 2] [], .block 1 [3] [1, 2]] ∧
      (Entry.block 1 [3] [1, 2]).Follows 2 (h.entries.take 1) ∧
      joined h.entries = h.requests.flatMap fun r => r.call.payload := by
  have opened := openWith_array (fun _ => ScriptedCompressor.mk .stored 0 0) validate_pairs
    Machine.hosts_default
  have run : (Pipeline.new (settings { blockSize := 2 } 1 validate_pairs)
    [ScriptedCompressor.mk .stored 0 0] ((#[] : Array UInt8) ++ Frame.header 6)).Run _ _ :=
    Pipeline.Run.start
  have asked := run.request (.submit [1, 2, 3]) ⟨.ok 0, rfl⟩
  have looked := asked.step (show Pipeline.step? _ .owner = some _ from rfl)
  have first := looked.step (show Pipeline.step? _ .owner = some _ from rfl)
  have received := first.step (show Pipeline.step? _ (.worker 0) = some _ from rfl)
  have second := received.step (show Pipeline.step? _ .owner = some _ from rfl)
  have told := blocks_follow opened second
  exact ⟨_, _, _, opened, second, ⟨_, rfl⟩, rfl, rfl, told.1 1 _ rfl, told.2.2.2 ⟨_, rfl⟩ rfl⟩

end Writer

end ParallelGzip
