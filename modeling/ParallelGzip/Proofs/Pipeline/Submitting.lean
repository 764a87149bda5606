import ParallelGzip.Proofs.Pipeline.Barrier
import ParallelGzip.Proofs.Pipeline.Exits
import ParallelGzip.Proofs.Stream.Failing

set_option autoImplicit false

/-! # Submitting: what a call that submits data can fail with

Whoever asks for the end of a member waits for it. So every end of a member is done when data is
submitted (`Run.endsDone`), and as the sink is flushed only behind such an end, it is not flushed
while the call runs. A failed flush is reported by the call that asked for it; what a submission
reports is that the writer is closed, that a worker failed, or that the sink failed to take what was
written to it (`Run.cause_of_submission`). -/

namespace ParallelGzip

variable {κ ω : Type} [BlockCompressor κ] [Sink ω]

namespace Pipeline

variable {settings : Settings} {compressors : List κ} {sink : ω} {h : History κ ω}
  {s s' : Pipeline κ ω}

/-! ## The call that is being carried out -/

omit [BlockCompressor κ] [Sink ω] in
theorem returned_of_eq (owner : s'.owner = s.owner) (returned : s.Returned) : s'.Returned := by
  rwa [Returned, owner]

omit [BlockCompressor κ] [Sink ω] in
/-- Who waits submits nothing. -/
theorem submitted_of_waiting {target : Nat} {last : Bool} (move : s.OwnerMove s')
    (phase : s.owner.phase = .waiting target last) :
    s'.owner.submitted = s.owner.submitted := by
  cases move.touches with
  | nothing _ submitted | detached _ _ _ _ submitted => exact submitted
  | sent _ _ submission? =>
    simp only [Pipeline.submission?, phase] at submission?
    cases submission?

omit [BlockCompressor κ] [Sink ω] in
/-- Who submits the end of a member has been asked for it. -/
theorem Carries.ne_submit {r : Request} {since : History κ ω} {next : Option Nat}
    (carries : s.Carries r since) (submission? : s.submission? = some (.memberEnd next))
    (data : Bytes) : r.call ≠ .submit data := by
  have phase : s.owner.phase = .ending next := by
    unfold Pipeline.submission? at submission?
    split at submission?
    · cases submission?
    · next phase =>
      cases submission?
      exact phase
    · cases submission?
  rw [Carries, phase] at carries
  intro same
  rw [carries] at same
  cases next <;> cases same

/-- A writer that has been asked for something carries out the last request, or has done so. -/
theorem Run.carries_last (run : Run (Pipeline.new settings compressors sink) h s) :
    s.Returned ∧ h.requests = [] ∨
      ∃ r since, h.requests.getLast? = some r ∧ s.Carries r since := by
  induction run with
  | start => exact .inl ⟨⟨_, rfl⟩, rfl⟩
  | @step h s s' party run step ih =>
    rw [History.requests_step]
    rcases ih with ⟨returned, none⟩ | ⟨r, since, last, carries⟩
    · cases party with
      | owner => exact absurd returned (not_returned_of_ownerStep? step)
      | worker i => exact .inl ⟨returned_of_eq (frame_of_workerStep? step).owner returned, none⟩
      | sequencer =>
        exact .inl ⟨returned_of_eq (move_of_sequencerStep? step).frame.2 returned, none⟩
    · refine .inr ⟨r, ?_⟩
      cases party with
      | owner => exact ⟨_, last, carries.move (move_of_ownerStep? step)⟩
      | worker i => exact ⟨since, last, carries.of_eq (frame_of_workerStep? step).owner rfl⟩
      | sequencer => exact ⟨since, last, carries.of_eq (move_of_sequencerStep? step).frame.2 rfl⟩
  | @request h s r run returned ih =>
    refine .inr ⟨r, [], ?_, carries_request s r⟩
    rw [History.requests_request, List.getLast?_concat]

/-! ## Ends of members are done when the call that asked for them returns -/

/-- Every end of a member is done. -/
def EndsDone (h : History κ ω) (s : Pipeline κ ω) : Prop :=
  ∀ p next, h.entries[p]? = some (.memberEnd next) → p < s.sequencer.index

namespace EndsDone

omit [BlockCompressor κ] [Sink ω]

theorem of_eq {m : Moment κ ω} (done : EndsDone h s)
    (entries : History.entries (h ++ [m]) = h.entries)
    (further : s.sequencer.index ≤ s'.sequencer.index) : EndsDone (h ++ [m]) s' := by
  intro p next found
  rw [entries] at found
  exact Nat.lt_of_lt_of_le (done p next found) further

/-- An owner that submits data submits no end of a member. -/
theorem ownerMove {r : Request} {since : History κ ω} {data : Bytes} (done : EndsDone h s)
    (move : s.OwnerMove s') (carries : s.Carries r since) (submits : r.call = .submit data) :
    EndsDone (h ++ [⟨s, .step .owner, s'⟩]) s' := by
  have same : s'.sequencer = s.sequencer := move.frame.2.1
  have further : s.sequencer.index ≤ s'.sequencer.index := Nat.le_of_eq (by rw [same])
  cases move.touches with
  | nothing _ submitted | detached _ _ _ _ submitted =>
    exact done.of_eq (History.entries_of_submitted_eq h submitted) further
  | sent entry lane submission? _ _ _ submitted =>
    have entries := History.entries_of_submitted_succ h submission? submitted
    intro p next found
    rw [entries] at found
    rw [same]
    rcases Nat.lt_or_ge p h.entries.length with earlier | last
    · rw [List.getElem?_append_left earlier] at found
      exact done p next found
    · rw [List.getElem?_append_right last] at found
      have isEnd := List.mem_singleton.1 (List.mem_of_getElem? found)
      exact absurd submits (carries.ne_submit (isEnd ▸ submission?) data)

end EndsDone

/-- When no call is running, every end of a member is done unless the writer is closed, and so it is
    while a call submits data. -/
theorem Run.endsDone (run : Run (Pipeline.new settings compressors sink) h s)
    (quiet : s.Returned ∨ ∃ data, h.requests.getLast? = some (.submit data)) :
    s.Settled ∨ EndsDone h s := by
  induction run with
  | start => exact .inr nofun
  | @step h s s' party run step ih =>
    rw [History.requests_step] at quiet
    have further := index_le_of_step? step
    have untouched (owner : s'.owner = s.owner)
        (entries : History.entries (h ++ [⟨s, .step party, s'⟩]) = h.entries) :
        s'.Settled ∨ EndsDone (h ++ [⟨s, .step party, s'⟩]) s' := by
      rcases ih (quiet.imp_left (returned_of_eq owner.symm)) with settled | done
      · exact .inl (by rwa [Settled, Returned, owner])
      · exact .inr (done.of_eq entries further)
    cases party with
    | worker i =>
      exact untouched (frame_of_workerStep? step).owner (History.entries_concat_of_none h rfl)
    | sequencer =>
      exact untouched (move_of_sequencerStep? step).frame.2 (History.entries_concat_of_none h rfl)
    | owner =>
      have move := move_of_ownerStep? step
      have moving := not_returned_of_ownerStep? step
      rcases run.carries_last with ⟨returned, -⟩ | ⟨r, since, last, carries⟩
      · exact absurd returned moving
      by_cases submits : ∃ data, r.call = .submit data
      · obtain ⟨data, submits⟩ := submits
        have asked : h.requests.getLast? = some (.submit data) := by
          cases r <;> cases submits
          exact last
        rcases ih (.inr ⟨data, asked⟩) with settled | done
        · exact absurd settled.1 moving
        · exact .inr (done.ownerMove move carries submits)
      · obtain ⟨result, ready⟩ : s'.Returned := by
          refine quiet.resolve_right ?_
          rintro ⟨data, asked⟩
          rw [last] at asked
          cases asked
          exact submits ⟨data, rfl⟩
        rw [Carries] at carries
        cases move.returns ready with
        | submittedNothing phase =>
          rw [phase] at carries
          exact absurd ⟨_, carries.symm⟩ submits
        | submitted rest total phase =>
          rw [phase] at carries
          exact absurd carries submits
        | flushed target phase done =>
          right
          have consistent := run.linked.owner
          rw [Owner.Consistent, phase] at consistent
          have all : h.entries.length ≤ s'.sequencer.index := by
            rw [run.ordered.entries_length, ← consistent.2]
            exact Nat.le_trans (run.linked.sequenced ▸ done) further
          intro p next found
          have kept := History.entries_of_submitted_eq h (submitted_of_waiting move phase)
          rw [kept] at found
          exact Nat.lt_of_lt_of_le (List.getElem?_eq_some_iff.1 found).1 all
        | reported failed phase =>
          left
          rw [phase] at carries
          refine ⟨⟨result, ready⟩, ?_⟩
          cases after : s'.owner.closed with
          | true => rfl
          | false =>
            exact absurd ((Linked.open_of_ownerMove move after).1.symm.trans carries.1)
              Bool.false_ne_true
  | @request h s r run returned ih =>
    rcases ih (.inl returned) with settled | done
    · left
      rw [request_of_closed settled.2]
      exact ⟨⟨_, rfl⟩, settled.2⟩
    · obtain ⟨phase, after⟩ := request_frame s r
      refine .inr (done.of_eq (History.entries_concat_of_none h rfl) (Nat.le_of_eq ?_))
      rw [after]

/-! ## The sink is flushed only behind an end -/

/-- What the sequencer is about to flush behind is the end of a member. -/
def EndsBehind (phase : SequencerPhase) (taken : List Rendered) : Prop :=
  match phase with
  | .received rendered => taken.getLast? = some rendered
  | .writing _ true | .flushing => EndsMember taken
  | _ => True

omit [BlockCompressor κ] in
theorem endsBehind_of_move (move : s.SequencerMove s')
    (ends : EndsBehind s.sequencer.phase h.taken) :
    EndsBehind s'.sequencer.phase (History.taken (h ++ [⟨s, .step .sequencer, s'⟩])) := by
  have keep : (∀ rendered, s'.sequencer.phase ≠ .received rendered) →
      History.taken (h ++ [⟨s, .step .sequencer, s'⟩]) = h.taken := taken_of_not_received h
  cases move with
  | receive phase turn outbox =>
    rw [History.taken_concat]
    exact List.getLast?_concat
  | @start rendered phase going =>
    rw [beginWriting_eq] at keep ⊢
    rw [keep (by simp)]
    rw [phase] at ends
    cases rendered with
    | block number compressed => trivial
    | memberEnd next => exact ⟨next, ends⟩
  | @finish thenFlush phase =>
    rw [phase] at ends
    cases thenFlush with
    | true =>
      rw [keep (by simp)]
      exact ends
    | false => trivial
  | @write rest thenFlush n sink phase =>
    rw [keep (by simp)]
    rw [phase] at ends
    cases thenFlush with
    | true => exact ends
    | false => trivial
  | interrupted phase =>
    rw [keep (by simp [phase])]
    exact ends
  | leave | flush | fail | advance | record | cancel | closeLane | exit => trivial

theorem Run.endsBehind (run : Run (Pipeline.new settings compressors sink) h s) :
    EndsBehind s.sequencer.phase h.taken := by
  induction run with
  | start => trivial
  | @step h s s' party run step ih =>
    cases party with
    | owner =>
      rw [(move_of_ownerStep? step).frame.2.1, History.taken_concat_of_none h rfl]
      exact ih
    | worker i =>
      rw [(frame_of_workerStep? step).sequencer, History.taken_concat_of_none h rfl]
      exact ih
    | sequencer => exact endsBehind_of_move (move_of_sequencerStep? step) ih
  | @request h s r run returned ih =>
    obtain ⟨phase, after⟩ := request_frame s r
    rw [History.taken_concat_of_none h rfl, after]
    exact ih

/-- An entry behind which the sequencer flushes is the end of a member. -/
theorem Run.memberEnd_of_flushing (nonempty : compressors ≠ [])
    (run : Run (Pipeline.new settings compressors sink) h s)
    (phase : s.sequencer.phase = .flushing) :
    ∃ next, h.entries[s.sequencer.index]? = some (.memberEnd next) := by
  have ends := run.endsBehind
  have took := run.ordered.taken_length
  rw [phase] at ends took
  obtain ⟨next, last⟩ := ends
  rw [List.getLast?_eq_getElem?, show h.taken.length = s.sequencer.index + 1 from took] at last
  obtain ⟨entry, found, passes⟩ := exists_entry_of_rendering
    (R := fun rendered entry => rendered = .memberEnd next → entry = .memberEnd next)
    (I := fun _ : κ => True) (by
      intro c entry rendered c' _ result
      refine ⟨?_, trivial⟩
      rintro rfl
      unfold compressEntry at result
      split at result
      · cases result
        rfl
      · split at result <;> cases result)
    (fun _ _ => trivial) (run.ordered.rendering_of_taken nonempty last)
  exact ⟨next, found.trans (congrArg some (passes rfl))⟩

/-! ## What the sink fails with -/

section Known

variable {writing flushing : IoError → Prop} {good : ω → Prop}

omit [BlockCompressor κ]

theorem nextSink_of_failsOnly (known : Sink.FailsOnly writing flushing good) (works : good s.sink)
    {mishap : Mishap} (mishap? : s.sinkMishap? = some mishap) : good s.nextSink := by
  unfold sinkMishap? at mishap?
  unfold nextSink
  split at mishap?
  · split at mishap?
    · cases mishap?
    · next some => exact known.stays works some
  · exact known.staysFlushed works
  · cases mishap?

theorem SequencerMove.failsOnly (known : Sink.FailsOnly writing flushing good)
    (works : good s.sink) (move : s.SequencerMove s') : good s'.sink := by
  cases move with
  | write phase some result | interrupted phase some result =>
    have stays := known.stays works some
    rwa [result] at stays
  | flush phase result =>
    have stays := known.staysFlushed works
    rwa [result] at stays
  | fail mishap? => exact nextSink_of_failsOnly known works mishap?
  | start phase going =>
    rw [beginWriting_eq]
    exact works
  | receive | leave | finish | advance | record | cancel | closeLane | exit => exact works

/-- A sink that fails does so when it is written to, or when it is flushed. -/
theorem cause_of_sinkMishap? (known : Sink.FailsOnly writing flushing good) (works : good s.sink)
    {index : Nat} {cause : IoError} (mishap? : s.sinkMishap? = some (.sinkFailed index cause)) :
    cause = Sink.nothingTaken ∨ writing cause ∨ s.sequencer.phase = .flushing := by
  unfold sinkMishap? at mishap?
  split at mishap?
  · split at mishap?
    · cases mishap?
    · next some =>
      split at mishap?
      · cases mishap?
        exact .inl rfl
      · next failed =>
        cases mishap?
        exact .inr (.inl (known.write works some failed))
      · cases mishap?
      · cases mishap?
  · next phase => exact .inr (.inr phase)
  · cases mishap?

end Known

variable {writing flushing : IoError → Prop} {good : ω → Prop}

/-- A sink whose failures are known stays one. -/
theorem Run.failsOnly {start : Pipeline κ ω} (known : Sink.FailsOnly writing flushing good)
    (works : good start.sink) (run : Run start h s) : good s.sink := by
  induction run with
  | start => exact works
  | @step h s s' party run step ih =>
    cases party with
    | owner =>
      rw [(move_of_ownerStep? step).frame.2.2.1]
      exact ih
    | worker i =>
      rw [(frame_of_workerStep? step).sink]
      exact ih
    | sequencer => exact (move_of_sequencerStep? step).failsOnly known ih
  | @request h s r run returned ih =>
    obtain ⟨phase, after⟩ := request_frame s r
    rw [after]
    exact ih

/-! ## Failures that have been left -/

/-- A call that will report this failure, because it is in the slot and the owner has seen it or is
    about to look, or one that has reported it. -/
def WillReport (s : Pipeline κ ω) (failure : Error) : Prop :=
  s.owner.phase = .ready (.error failure) ∨
    s.failure = some failure ∧ (s.owner.phase.Failed ∨ ∃ call, s.owner.phase = .checking call)

namespace WillReport

variable {failure : Error}

omit [BlockCompressor κ] [Sink ω]

/-- The slot keeps what it holds, so the other parties do not matter. -/
theorem of_eq (reports : s.WillReport failure) (owner : s'.owner = s.owner)
    (slot : ∃ later, s'.failure = s.failure.or later) : s'.WillReport failure := by
  rw [WillReport, owner]
  refine reports.imp_right ?_
  rintro ⟨left, looks⟩
  obtain ⟨later, kept⟩ := slot
  rw [kept, left]
  exact ⟨rfl, looks⟩

theorem ownerMove (reports : s.WillReport failure) (move : s.OwnerMove s')
    (moving : ¬s.Returned) : s'.WillReport failure := by
  obtain ⟨left, looks⟩ := reports.resolve_left fun ready => moving ⟨_, ready⟩
  cases move with
  | giveUp => exact .inr ⟨left, .inl trivial⟩
  | cancel => exact .inr ⟨left, .inl rfl⟩
  | submitNothing _ clear | beginSubmit _ _ clear | beginFlush _ clear | beginClose _ clear =>
    rw [left] at clear
    cases clear
  | send submission? =>
    exfalso
    unfold Pipeline.submission? at submission?
    split at submission?
    · next phase => simp [phase, OwnerPhase.Failed] at looks
    · next phase => simp [phase, OwnerPhase.Failed] at looks
    · cases submission?
  | finishFlush phase | finishClose phase =>
    simp [phase, OwnerPhase.Failed] at looks
  | closeLane phase | closed phase | join phase | joined phase | joinSequencer phase =>
    simp only [phase, OwnerPhase.Failed, reduceCtorEq, exists_false, or_false] at looks
    exact .inr ⟨left, .inl looks⟩
  | report phase =>
    left
    simp only [closingResult, left]

end WillReport

/-- A call that will report a failure is on the way to it whatever the parties do. -/
theorem Run.willReport {failure : Error} {start : Pipeline κ ω} (run : Run start h s)
    (alone : h.requests = []) (reports : start.WillReport failure) : s.WillReport failure := by
  induction run with
  | start => exact reports
  | @step h s s' party run step ih =>
    rw [History.requests_step] at alone
    have before := ih alone
    cases party with
    | owner => exact before.ownerMove (move_of_ownerStep? step) (not_returned_of_ownerStep? step)
    | worker i =>
      refine before.of_eq (frame_of_workerStep? step).owner ?_
      obtain ⟨lane, lane', notice, -, -, after⟩ := move_of_workerStep? step
      rw [after]
      cases notice with
      | nothing | cancel => exact ⟨none, (Option.or_none).symm⟩
      | failure later => exact ⟨some later, rfl⟩
    | sequencer =>
      have move := move_of_sequencerStep? step
      refine before.of_eq move.frame.2 ?_
      cases move.reports with
      | meets _ _ _ _ slot | neither _ _ _ slot => exact ⟨none, by rw [slot, Option.or_none]⟩
      | leaves later _ _ _ slot => exact ⟨some later, slot⟩
  | @request h s r run returned ih =>
    rw [History.requests_request] at alone
    exact absurd alone (List.concat_ne_nil _ _)

/-! ## What a submission reports -/

/-- What a call that submits data can fail with, if the sink fails with `writing` when it is written
    to. -/
inductive SubmissionFailure (writing : IoError → Prop) : Error → Prop
  | closed : SubmissionFailure writing .closed
  | block (number : Nat) (cause : CodecError) : SubmissionFailure writing (cause.inBlock number)
  | panic (role : String) : SubmissionFailure writing (panicOf role)
  | nothingTaken : SubmissionFailure writing (.ofIo Sink.nothingTaken)
  | sink {cause : IoError} (failed : writing cause) : SubmissionFailure writing (.ofIo cause)

section Submissions

variable {h₁ h₂ : History κ ω} {m : Moment κ ω} {data : Bytes} {error : Error}

/-- A failure of the sink is one of the sequencer. -/
theorem sinkMishap?_of_sinkFailed {index : Nat} {cause : IoError}
    (mishap? : m.mishap? = some (.sinkFailed index cause)) :
    m.before.sinkMishap? = some (.sinkFailed index cause) := by
  unfold Moment.mishap? at mishap?
  split at mishap?
  · exact absurd (index?_of_workerMishap mishap?) nofun
  · exact mishap?
  · cases mishap?

/-- A flush that has failed is not on the way to anybody who submits data. -/
theorem Run.not_flushing_of_mishap (nonempty : compressors ≠ [])
    (run : Run (Pipeline.new settings compressors sink) h s)
    (last : h.requests.getLast? = some (.submit data)) (unsettled : ¬s.Settled)
    {m : Moment κ ω} (hm : m ∈ h) {index : Nat} {cause : IoError}
    (mishap? : m.mishap? = some (.sinkFailed index cause)) :
    m.before.sequencer.phase ≠ .flushing := by
  intro phase
  have done := (run.endsDone (.inr ⟨data, last⟩)).resolve_left unsettled
  have stands := (run.index_of_mishap (List.mem_filterMap.2 ⟨m, hm, mishap?⟩) rfl).1
  obtain ⟨h₁, h₂, rfl⟩ := List.append_of_mem hm
  obtain ⟨next, found⟩ := run.split.1.memberEnd_of_flushing nonempty phase
  have there : m.before.sequencer.index = index :=
    Option.some.inj (index?_of_sinkMishap? (sinkMishap?_of_sinkFailed mishap?)).symm
  have still : (History.entries (h₁ ++ m :: h₂))[index]? = some (.memberEnd next) := by
    rw [History.entries_append, ← there,
      List.getElem?_append_left (List.getElem?_eq_some_iff.1 found).1]
    exact found
  exact Nat.lt_irrefl index (stands ▸ done index next still)

/-- A call that submits data does not report a failed flush. -/
theorem Run.cause_of_submission (nonempty : compressors ≠ [])
    (known : Sink.FailsOnly writing flushing good) (works : good sink)
    (run : Run (Pipeline.new settings compressors sink) (h₁ ++ m :: h₂) s)
    (last : (History.requests (h₁ ++ [m])).getLast? = some (.submit data))
    (outcome? : m.outcome? = some (.error error)) : SubmissionFailure writing error := by
  obtain ⟨before, through⟩ := run.split
  have hm : m ∈ h₁ ++ [m] := List.mem_append_right _ List.mem_cons_self
  rcases through.act_of_mem hm with ⟨party, act, step⟩ | ⟨r, act, returned, after⟩
  · obtain rfl : party = .owner := by
      cases party with
      | owner => rfl
      | worker i | sequencer => simp only [Moment.outcome?, act, reduceCtorEq] at outcome?
    have quiet : m.mishap? = none := by simp only [Moment.mishap?, act]
    have nothing : m.request? = none := by simp only [Moment.request?, act]
    rw [History.requests_concat, nothing, Option.toList_none, List.append_nil] at last
    have unsettled : ¬m.before.Settled := fun settled =>
      not_returned_of_ownerStep? step settled.1
    rcases through.exists_mishap_of_error nonempty hm outcome? with
      ⟨r, -, -, rfl⟩ | ⟨mishap, hmishap, rfl⟩
    · exact .closed
    rw [History.mishaps_concat, quiet, Option.toList_none, List.append_nil] at hmishap
    cases mishap with
    | blockFailed number cause => exact .block number cause
    | blockPanicked | sinkPanicked => exact .panic _
    | sinkFailed index cause =>
      obtain ⟨m', hm', mishap?⟩ := List.mem_filterMap.1 hmishap
      have writes := before.not_flushing_of_mishap nonempty last unsettled hm' mishap?
      obtain ⟨h₁, h₂, rfl⟩ := List.append_of_mem hm'
      have stays := before.split.1.failsOnly known works
      rcases cause_of_sinkMishap? known stays (sinkMishap?_of_sinkFailed mishap?) with
        rfl | failed | phase
      · exact .nothingTaken
      · exact .sink failed
      · exact absurd phase writes
  · cases closed : m.before.owner.closed with
    | true =>
      rw [through.eq_closed_of_error hm act closed outcome?]
      exact .closed
    | false =>
      -- a request to an open writer has still to be carried out
      rw [request_of_open closed] at after
      simp only [Moment.outcome?, act, after, own, reduceCtorEq] at outcome?

end Submissions

end Pipeline

end ParallelGzip
