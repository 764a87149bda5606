import ParallelGzip.Proofs.Pipeline.Failures

set_option autoImplicit false

/-! # Programs: what a writer is asked for, and what it submits

As long as nothing goes wrong, the entries that the owner submits stand for what it is asked for:
the blocks of a member make up what is to be in it, and every end of a member that is asked for is
submitted. `Performs` says so of an owner that may be anywhere in carrying out a call, and
`Run.performs` of every run that is `calm` and asks for nothing behind the last member. -/

namespace ParallelGzip

/-! ## Payloads -/

/-- What is to be in members: in those that are whole, and in the one that is open. -/
structure Payloads where
  whole : List Bytes
  current : Bytes

namespace Payloads

/-- Before anything has been asked for, the first member is open. -/
def empty : Payloads := ⟨[], []⟩

/-- More bytes in the open member. -/
def write (p : Payloads) (data : Bytes) : Payloads := ⟨p.whole, p.current ++ data⟩

/-- The end of the open member. -/
def cut (p : Payloads) : Payloads := ⟨p.whole ++ [p.current], []⟩

/-- What a call asks for. -/
def ask (p : Payloads) : Call → Payloads
  | .submit data => p.write data
  | .flush | .close => p.cut

/-- What requests ask for, one after the other. -/
def askAll (p : Payloads) (requests : List Request) : Payloads :=
  requests.foldl (fun p r => p.ask r.call) p

/-- What requests ask for from the start. -/
def asked (requests : List Request) : Payloads := empty.askAll requests

@[simp] theorem write_nil (p : Payloads) : p.write [] = p := by
  rw [write, List.append_nil]

theorem write_write (p : Payloads) (first second : Bytes) :
    (p.write first).write second = p.write (first ++ second) := by
  rw [write, write, write, List.append_assoc]

theorem askAll_append (p : Payloads) (first second : List Request) :
    p.askAll (first ++ second) = (p.askAll first).askAll second := List.foldl_append

theorem asked_concat (requests : List Request) (r : Request) :
    asked (requests ++ [r]) = (asked requests).ask r.call := askAll_append empty requests [r]

end Payloads

/-! ## Entries that stand for payloads -/

/-- The entries stand for these payloads, and `previous` is the last block of the open member. Every
    block comes with the end of the one before it, and behind the end that announces no other member
    the entries have `ended`. -/
inductive Composed : List Entry → Payloads → (previous : Bytes) → (ended : Bool) → Prop
  | nil : Composed [] .empty [] false
  | block {entries : List Entry} {p : Payloads} {previous : Bytes} (number : Nat) (data : Bytes)
      (before : Composed entries p previous false) :
      Composed (entries ++ [.block number data (windowOf previous)]) (p.write data) data false
  | memberEnd {entries : List Entry} {p : Payloads} {previous : Bytes} (next : Option Nat)
      (before : Composed entries p previous false) :
      Composed (entries ++ [.memberEnd next]) p.cut [] next.isNone

/-- Whether a call is to close the writer. -/
def Call.closes : Call → Bool
  | close => true
  | submit _ | flush => false

/-- Whether a block is not larger than this; the end of a member never is. -/
def Entry.Fits (blockSize : Nat) : Entry → Prop
  | block _ data _ => data.length ≤ blockSize
  | memberEnd _ => True

variable {κ ω : Type}

/-- How what an owner is asked for goes with what it has `done`, wherever it is. It has `ended` the
    last member if that has been asked for, and `closing` tells whether it has. -/
def Owner.Owes (o : Owner) (done : Payloads) (ended : Bool) (asked : Payloads) (closing : Bool) :
    Prop :=
  match o.phase with
  | .ready result =>
    asked = done ∧ ended = closing ∧ o.closed = closing ∧ ∃ n, result = .ok n
  | .checking call => asked = done.ask call ∧ ended = false ∧ closing = call.closes
  | .submitting rest _ => asked = done.write rest ∧ ended = false ∧ closing = false
  | .ending next => asked = done.cut ∧ ended = false ∧ closing = next.isNone
  | .waiting _ last => asked = done ∧ ended = last ∧ closing = last
  | .cancelling => False
  | .closing _ _ | .joining _ _ | .joiningSequencer _ | .reporting _ =>
    asked = done ∧ ended = true ∧ closing = true

namespace Pipeline

/-- The owner has submitted what it has been asked for as far as it has come, and an owner that has
    closed has seen it done. -/
structure Performs (h : History κ ω) (s : Pipeline κ ω) : Prop where
  owes : ∃ done ended, Composed h.entries done s.owner.previous ended ∧
    s.owner.Owes done ended (Payloads.asked h.requests) (h.requests.any fun r => r.call.closes)
  done : s.owner.closed = true → s.owner.submitted ≤ s.sequenced

namespace Performs

variable {h : History κ ω} {s s' : Pipeline κ ω}

theorem new (settings : Settings) (compressors : List κ) (sink : ω) :
    Performs [] (Pipeline.new settings compressors sink) where
  owes := ⟨.empty, false, .nil, rfl, rfl, rfl, 0, rfl⟩
  done := nofun

/-- What leaves the owner alone leaves what it owes alone. -/
theorem of_eq {h' : History κ ω} (performs : s.Performs h) (owner : s'.owner = s.owner)
    (sequenced : s.sequenced ≤ s'.sequenced) (entries : h'.entries = h.entries)
    (requests : h'.requests = h.requests) : s'.Performs h' := by
  refine ⟨?_, ?_⟩
  · rw [owner, entries, requests]
    exact performs.owes
  · rw [owner]
    intro closed
    exact Nat.le_trans (performs.done closed) sequenced

/-- A move that submits nothing changes only how what is owed is written down. -/
theorem of_owes (performs : s.Performs h) (submitted : s'.owner.submitted = s.owner.submitted)
    (previous : s'.owner.previous = s.owner.previous)
    (owes : ∀ done ended asked closing, s.owner.Owes done ended asked closing →
      s'.owner.Owes done ended asked closing)
    (done : s'.owner.closed = true → s'.owner.submitted ≤ s'.sequenced) :
    s'.Performs (h ++ [⟨s, .step .owner, s'⟩]) := by
  refine ⟨?_, done⟩
  obtain ⟨payloads, ended, composed, before⟩ := performs.owes
  rw [History.requests_step, History.entries_of_submitted_eq h submitted, previous]
  exact ⟨payloads, ended, composed, owes _ _ _ _ before⟩

/-- Sending a block or the end of a member. -/
theorem send {entry : Entry} {lane : Lane κ} (performs : s.Performs h)
    (submission? : s.submission? = some entry) (consistent : s.owner.Consistent) :
    Performs (h ++ [⟨s, .step .owner, { s with
      lanes := s.lanes.set s.ownerTurn { lane with inbox := lane.inbox ++ [entry] }
      owner := s.ownerAfterSending }⟩]) { s with
        lanes := s.lanes.set s.ownerTurn { lane with inbox := lane.inbox ++ [entry] }
        owner := s.ownerAfterSending } := by
  have opened := Linked.open_of_submission? consistent submission?
  obtain ⟨payloads, ended, composed, owes⟩ := performs.owes
  refine ⟨?_, ?_⟩
  · rw [History.requests_step,
      History.entries_of_submitted_succ h submission? (ownerAfterSending_submitted submission?)]
    unfold Pipeline.submission? at submission?
    unfold Owner.Owes at owes
    unfold ownerAfterSending
    split at submission?
    · next rest total phase =>
      cases submission?
      rw [phase] at owes
      obtain ⟨hasked, rfl, hclosing⟩ := owes
      refine ⟨_, _, .block _ _ composed, ?_⟩
      -- what is asked for splits into the block that is sent and what is left
      have parts : payloads.write rest = (payloads.write (rest.take s.settings.blockSize)).write
          (rest.drop s.settings.blockSize) := by
        rw [Payloads.write_write, List.take_append_drop]
      rw [parts] at hasked
      by_cases all : rest.drop s.settings.blockSize = []
      · rw [all, Payloads.write_nil] at hasked
        simp only [all, if_true, Owner.Owes]
        exact ⟨hasked, hclosing.symm, opened.trans hclosing.symm, total, rfl⟩
      · simp only [all, if_false, Owner.Owes]
        exact ⟨hasked, trivial, hclosing⟩
    · next next phase =>
      cases submission?
      rw [phase] at owes
      obtain ⟨hasked, rfl, hclosing⟩ := owes
      exact ⟨_, _, .memberEnd next composed, hasked, rfl, hclosing⟩
    · cases submission?
  · intro closed
    rw [show s.ownerAfterSending.closed = false from
      (Linked.closed_ownerAfterSending s).trans opened] at closed
    cases closed

theorem ownerMove (performs : s.Performs h) (move : s.OwnerMove s')
    (consistent : s.owner.Consistent) (goesOn : ¬s.OwnerGivesUp)
    (succeeds : ∀ failed, s.owner.phase = .reporting failed → s.closingResult failed = .ok 0) :
    s'.Performs (h ++ [⟨s, .step .owner, s'⟩]) := by
  have done := performs.done
  cases move with
  | giveUp givesUp => exact absurd givesUp goesOn
  | send submission? => exact performs.send submission? consistent
  | submitNothing phase =>
    rw [Owner.Consistent, phase] at consistent
    refine performs.of_owes rfl rfl ?_ done
    intro payloads ended asked closing owes
    rw [Owner.Owes, phase] at owes
    obtain ⟨rfl, rfl, rfl⟩ := owes
    exact ⟨payloads.write_nil, rfl, consistent, 0, rfl⟩
  | finishFlush phase =>
    rw [Owner.Consistent, phase] at consistent
    refine performs.of_owes rfl rfl ?_ done
    intro payloads ended asked closing owes
    rw [Owner.Owes, phase] at owes
    obtain ⟨rfl, rfl, rfl⟩ := owes
    exact ⟨rfl, rfl, consistent.1, 0, rfl⟩
  | finishClose phase reached =>
    rw [Owner.Consistent, phase] at consistent
    refine performs.of_owes rfl rfl ?_ ?_
    · intro payloads ended asked closing owes
      rw [Owner.Owes, phase] at owes
      exact owes
    · intro _
      rw [← consistent.2]
      exact reached
  | cancel phase =>
    -- an owner that has not given up is never about to cancel
    obtain ⟨payloads, ended, -, owes⟩ := performs.owes
    rw [Owner.Owes, phase] at owes
    exact owes.elim
  | report phase =>
    rw [Owner.Consistent, phase] at consistent
    refine performs.of_owes rfl rfl ?_ done
    intro payloads ended asked closing owes
    rw [Owner.Owes, phase] at owes
    obtain ⟨rfl, rfl, rfl⟩ := owes
    exact ⟨rfl, rfl, consistent, 0, succeeds _ phase⟩
  | beginSubmit phase | beginFlush phase | beginClose phase | closeLane phase | closed phase
  | join phase | joined phase | joinSequencer phase =>
    refine performs.of_owes rfl rfl ?_ done
    intro payloads ended asked closing owes
    rw [Owner.Owes, phase] at owes
    exact owes

/-- A request made of a writer that has not been asked to close. -/
theorem request (performs : s.Performs h) (returned : s.Returned) (r : Request)
    (closing : (h.requests.any fun r => r.call.closes) = false) :
    (s.request r).Performs (h ++ [⟨s, .request r, s.request r⟩]) := by
  obtain ⟨result, phase⟩ := returned
  obtain ⟨payloads, ended, composed, owes⟩ := performs.owes
  rw [Owner.Owes, phase, closing] at owes
  obtain ⟨hasked, rfl, opened, -⟩ := owes
  have requests := History.requests_request h s (s.request r) r
  have entries : History.entries (h ++ [⟨s, .request r, s.request r⟩]) = h.entries :=
    History.entries_concat_of_none h rfl
  rw [request_of_open opened] at requests entries ⊢
  refine ⟨?_, performs.done⟩
  rw [requests, entries, Payloads.asked_concat, hasked, List.any_append, closing]
  exact ⟨payloads, false, composed, rfl, rfl, by simp⟩

/-- What an owner comes to that has returned. -/
theorem result_eq_ok (performs : s.Performs h) (returned : s.Returned) :
    (∃ n, s.result = .ok n) ∧
      s.owner.closed = h.requests.any fun r => r.call.closes := by
  obtain ⟨result, phase⟩ := returned
  obtain ⟨payloads, ended, -, owes⟩ := performs.owes
  rw [Owner.Owes, phase] at owes
  obtain ⟨-, -, closed, n, rfl⟩ := owes
  exact ⟨⟨n, by rw [result, phase]⟩, closed⟩

end Performs

/-- A block is cut to the block size. -/
theorem fits_of_submission? {s : Pipeline κ ω} {entry : Entry}
    (submission? : s.submission? = some entry) : entry.Fits s.settings.blockSize := by
  unfold Pipeline.submission? at submission?
  split at submission?
  · cases submission?
    exact List.length_take_le _ _
  · cases submission?
    trivial
  · cases submission?

section Calm

variable [BlockCompressor κ] [Sink ω] {settings : Settings} {compressors : List κ} {sink : ω}
  {h : History κ ω} {s : Pipeline κ ω}

/-- As long as nothing goes wrong there is no failure to be reported. -/
theorem Run.not_raised (run : Run (Pipeline.new settings compressors sink) h s)
    (calm : h.mishaps = []) (unsettled : ¬s.Settled) : ¬s.Raised := by
  have recorded : h.recorded = [] := by
    refine List.eq_nil_iff_forall_not_mem.2 ?_
    intro failure left
    obtain ⟨mishap, found, -⟩ := run.reported.recorded failure left
    rw [calm] at found
    cases found
  rintro (left | settled)
  · rw [run.reported.slot unsettled, recorded] at left
    cases left
  · exact unsettled settled

/-- As long as nothing goes wrong the owner does not give up. -/
theorem Run.not_givesUp (nonempty : compressors ≠ [])
    (run : Run (Pipeline.new settings compressors sink) h s) (calm : h.mishaps = []) :
    ¬s.OwnerGivesUp := by
  intro givesUp
  have opened := Linked.open_of_givesUp run.linked.owner givesUp
  refine run.not_raised calm ?_ ((run.alarmed nonempty).raised_of_givesUp run.linked
    (run.ordered.lanes_ne_nil nonempty) givesUp)
  rintro ⟨-, closed⟩
  rw [opened] at closed
  cases closed

/-- As long as nothing goes wrong closing succeeds. -/
theorem Run.closingResult_eq_ok (nonempty : compressors ≠ [])
    (run : Run (Pipeline.new settings compressors sink) h s) (calm : h.mishaps = []) {failed : Bool}
    (phase : s.owner.phase = .reporting failed) : s.closingResult failed = .ok 0 := by
  rcases closingResult_eq run.linked (run.alarmed nonempty) run.reported phase with
    ⟨failure, left, -⟩ | ⟨-, -, ok⟩
  · obtain ⟨mishap, found, -⟩ := run.reported.recorded failure (List.mem_of_head? left)
    rw [calm] at found
    cases found
  · exact ok

/-- As long as nothing goes wrong, and nothing is asked for behind the last member, the owner does
    what it is asked for. -/
theorem Run.performs (nonempty : compressors ≠ [])
    (run : Run (Pipeline.new settings compressors sink) h s) (calm : h.mishaps = [])
    (program : (h.requests.dropLast.any fun r => r.call.closes) = false) : s.Performs h := by
  induction run with
  | start => exact .new settings compressors sink
  | @step h s s' party run step ih =>
    rw [History.mishaps_append, List.append_eq_nil_iff] at calm
    rw [History.requests_step] at program
    have before := ih calm.1 program
    have requests := History.requests_step h s s' party
    cases party with
    | owner =>
      exact before.ownerMove (move_of_ownerStep? step) run.linked.owner
        (run.not_givesUp nonempty calm.1) fun _ => run.closingResult_eq_ok nonempty calm.1
    | worker i =>
      have frame := frame_of_workerStep? step
      exact before.of_eq frame.owner (Nat.le_of_eq frame.sequenced.symm)
        (History.entries_concat_of_none h rfl) requests
    | sequencer =>
      have move := move_of_sequencerStep? step
      have sequenced := Alarmed.sequenced_le_of_move run.linked.sequenced move
      exact before.of_eq move.frame.2 sequenced (History.entries_concat_of_none h rfl) requests
  | @request h s r run returned ih =>
    rw [History.mishaps_append, List.append_eq_nil_iff] at calm
    rw [History.requests_request, List.dropLast_concat] at program
    refine Performs.request (ih calm.1 ?_) returned r program
    rw [List.any_eq_false] at program ⊢
    intro r hr
    exact program r (List.dropLast_subset _ hr)

/-- No block is larger than the block size. -/
theorem Run.fits (run : Run (Pipeline.new settings compressors sink) h s) :
    s.settings = settings ∧ ∀ entry ∈ h.entries, entry.Fits settings.blockSize := by
  induction run with
  | start => exact ⟨rfl, fun entry none => by cases none⟩
  | @step h s s' party run step ih =>
    obtain ⟨same, fits⟩ := ih
    cases party with
    | owner =>
      have move := move_of_ownerStep? step
      refine ⟨move.frame.1.trans same, ?_⟩
      cases move.touches with
      | sent entry lane submission? turn worker lanes submitted =>
        rw [History.entries_of_submitted_succ h submission? submitted]
        intro found hfound
        rcases List.mem_append.1 hfound with before | last
        · exact fits found before
        · obtain rfl := List.mem_singleton.1 last
          exact same ▸ fits_of_submission? submission?
      | nothing lanes submitted | detached i lane lane? lanes submitted =>
        rw [History.entries_of_submitted_eq h submitted]
        exact fits
    | worker i =>
      rw [History.entries_concat_of_none h rfl]
      exact ⟨(frame_of_workerStep? step).settings.trans same, fits⟩
    | sequencer =>
      rw [History.entries_concat_of_none h rfl]
      exact ⟨(move_of_sequencerStep? step).frame.1.trans same, fits⟩
  | @request h s r run returned ih =>
    obtain ⟨phase, after⟩ := request_frame s r
    rw [History.entries_concat_of_none h rfl, after]
    exact ih

end Calm

end Pipeline

end ParallelGzip
