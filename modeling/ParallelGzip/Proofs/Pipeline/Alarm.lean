import ParallelGzip.Proofs.Pipeline.Linked
import ParallelGzip.Proofs.Pipeline.Order

set_option autoImplicit false

/-! # Alarm: nobody stops without a failure in the slot

A failure is left in the slot before anybody is told to stop, and the owner takes it out only when
everybody is gone. `Alarmed` says that whoever stops early, or sees that somebody has, finds a
failure in the slot as long as the call has not returned; and that an owner that closes without a
failure has seen all its entries done. -/

namespace ParallelGzip

variable {κ ω : Type}

/-- Whether the owner is closing because of a failure. -/
def OwnerPhase.Failed : OwnerPhase → Prop
  | cancelling => True
  | closing _ failed | joining _ failed | joiningSequencer failed | reporting failed =>
    failed = true
  | _ => False

/-- Whether the owner is closing after all its entries are done. -/
def OwnerPhase.Done : OwnerPhase → Prop
  | closing _ failed | joining _ failed | joiningSequencer failed | reporting failed =>
    failed = false
  | _ => False

namespace Pipeline

/-- The writer is closed and the call that closed it has returned. -/
def Settled (s : Pipeline κ ω) : Prop := s.Returned ∧ s.owner.closed = true

/-- A failure is in the slot, or has been reported. -/
def Raised (s : Pipeline κ ω) : Prop := s.failure.isSome = true ∨ s.Settled

/-- Whoever stops early, or sees that somebody has, finds a failure. -/
structure Alarmed (s : Pipeline κ ω) : Prop where
  worker : ∀ (i : Nat) (lane : Lane κ), s.lanes[i]? = some lane → lane.worker = .cancelling →
    s.Raised
  sequencer : s.sequencer.phase = .cancelling → s.Raised
  cancelled : s.owner.closed = false → s.cancelled = true → s.Raised
  failed : s.owner.phase.Failed → s.Raised
  panicked : s.sequencer.panicked = true →
    (∃ failure, s.sequencer.phase = .recording failure) ∨ s.Raised
  done : s.owner.phase.Done → s.owner.submitted ≤ s.sequenced

/-! ## A failure stays until it is reported -/

section Raised

variable {s s' : Pipeline κ ω}

theorem Raised.of_eq (raised : s.Raised) (owner : s'.owner = s.owner)
    (failure : s.failure.isSome = true → s'.failure.isSome = true) : s'.Raised := by
  rcases raised with left | settled
  · exact .inl (failure left)
  · refine .inr ?_
    rw [Settled, Returned, owner]
    exact settled

theorem Raised.workerStep? [BlockCompressor κ] (raised : s.Raised) {i : Nat}
    (step : s.workerStep? i = some s') : s'.Raised := by
  obtain ⟨lane, lane', notice, -, -, after⟩ := move_of_workerStep? step
  refine raised.of_eq (frame_of_workerStep? step).owner ?_
  intro left
  rw [after]
  cases notice with
  | failure failure => simp only [post, Option.isSome_or, left, Bool.true_or]
  | nothing | cancel => exact left

theorem Raised.sequencerMove [Sink ω] (raised : s.Raised) (move : s.SequencerMove s') :
    s'.Raised := by
  refine raised.of_eq move.frame.2 ?_
  intro left
  cases move with
  | @start rendered => cases rendered <;> exact left
  | record phase => simp only [Option.isSome_or, left, Bool.true_or]
  | _ => exact left

theorem Raised.ownerMove (raised : s.Raised) (consistent : s.owner.Consistent)
    (move : s.OwnerMove s') (step : s.ownerStep? = some s') : s'.Raised := by
  rcases raised with left | ⟨returned, -⟩
  · rw [Owner.Consistent] at consistent
    cases move with
    | report phase =>
      rw [phase] at consistent
      exact .inr ⟨⟨_, rfl⟩, consistent⟩
    | _ => exact .inl left
  · exact absurd returned (not_returned_of_ownerStep? step)

theorem Raised.request (raised : s.Raised) (r : Request) : (s.request r).Raised := by
  rcases raised with left | ⟨-, closed⟩
  · obtain ⟨phase, after⟩ := request_frame s r
    rw [after]
    exact .inl left
  · rw [request_of_closed closed]
    exact .inr ⟨⟨_, rfl⟩, closed⟩

end Raised

/-! ## Every step keeps the alarm -/

namespace Alarmed

variable {s s' : Pipeline κ ω}

theorem new (settings : Settings) (compressors : List κ) (sink : ω) :
    (Pipeline.new settings compressors sink).Alarmed where
  worker := by
    intro i lane hlane cancelling
    simp only [Pipeline.new, List.getElem?_map, Option.map_eq_some_iff] at hlane
    obtain ⟨compressor, -, rfl⟩ := hlane
    cases cancelling
  sequencer := nofun
  cancelled := nofun
  failed := False.elim
  panicked := nofun
  done := False.elim

theorem workerStep? [BlockCompressor κ] (alarmed : s.Alarmed) {i : Nat}
    (step : s.workerStep? i = some s') : s'.Alarmed := by
  have raised : s.Raised → s'.Raised := fun before => before.workerStep? step
  obtain ⟨lane, lane', notice, hlane, move, after⟩ := move_of_workerStep? step
  obtain ⟨-, sequencer, -, sequenced, owner⟩ := frame_of_workerStep? step
  refine ⟨?worker, ?sequencer, ?cancelled, ?failed, ?panicked, ?done⟩
  case worker =>
    intro j found hfound cancelling
    rw [after, post_lanes] at hfound
    rcases getElem?_set_cases hfound with ⟨rfl, rfl⟩ | ⟨-, hold⟩
    · cases move with
      | record worker =>
        refine .inl ?_
        simp only [after, post, Option.isSome_or, Option.isSome_some, Bool.or_true]
      | _ => cases cancelling
    · exact raised (alarmed.worker j found hold cancelling)
  case sequencer =>
    rw [sequencer]
    intro cancelling
    exact raised (alarmed.sequencer cancelling)
  case cancelled =>
    rw [owner]
    intro opened cancelled
    cases before : s.cancelled with
    | true => exact raised (alarmed.cancelled opened before)
    | false =>
      cases move with
      | cancel worker => exact raised (alarmed.worker i lane hlane worker)
      | _ =>
        rw [after] at cancelled
        exact Bool.noConfusion (before.symm.trans cancelled)
  case failed =>
    rw [owner]
    intro failed
    exact raised (alarmed.failed failed)
  case panicked =>
    rw [sequencer]
    intro panicked
    exact (alarmed.panicked panicked).imp_right raised
  case done =>
    rw [owner, sequenced]
    exact alarmed.done

theorem panicked_of_move [Sink ω] (alarmed : s.Alarmed) (move : s.SequencerMove s')
    (raised : s.Raised → s'.Raised) (panicked : s'.sequencer.panicked = true) :
    (∃ failure, s'.sequencer.phase = .recording failure) ∨ s'.Raised := by
  have before := alarmed.panicked
  cases move with
  | fail mishap? => exact .inl ⟨_, rfl⟩
  | record phase =>
    refine .inr (.inl ?_)
    simp only [Option.isSome_or, Option.isSome_some, Bool.or_true]
  | @start rendered phase =>
    rw [phase] at before
    cases rendered <;>
      exact .inr (raised ((before panicked).resolve_left fun ⟨_, recording⟩ => nomatch recording))
  | leave leaves =>
    cases leaves with
    | abandoned _ phase | told _ phase =>
      rw [phase] at before
      exact .inr (raised ((before panicked).resolve_left fun ⟨_, recording⟩ => nomatch recording))
  | receive phase | finish phase | write phase | interrupted phase | flush phase | advance phase
  | cancel phase | closeLane phase | exit phase =>
    rw [phase] at before
    exact .inr (raised ((before panicked).resolve_left fun ⟨_, recording⟩ => nomatch recording))

theorem sequenced_le_of_move [Sink ω] (sequenced : s.sequenced = s.sequencer.index)
    (move : s.SequencerMove s') : s.sequenced ≤ s'.sequenced := by
  cases move with
  | @start rendered => cases rendered <;> exact Nat.le_refl _
  | advance phase =>
    rw [sequenced]
    exact Nat.le_succ _
  | _ => exact Nat.le_refl _

theorem sequencerStep? [Sink ω] (alarmed : s.Alarmed) (linked : s.Linked)
    (step : s.sequencerStep? = some s') : s'.Alarmed := by
  have move := move_of_sequencerStep? step
  have raised : s.Raised → s'.Raised := fun before => before.sequencerMove move
  have owner := move.frame.2
  refine ⟨?worker, ?sequencer, ?cancelled, ?failed, ?panicked, ?done⟩
  case worker =>
    intro i lane hlane cancelling
    obtain ⟨before, hbefore, hworker, -⟩ := Linked.lane_of_move move hlane
    rw [hworker] at cancelling
    exact raised (alarmed.worker i before hbefore cancelling)
  case sequencer =>
    intro cancelling
    cases move with
    | record phase =>
      refine .inl ?_
      simp only [Option.isSome_or, Option.isSome_some, Bool.or_true]
    | interrupted phase =>
      rw [phase] at cancelling
      cases cancelling
    | @start rendered => cases rendered <;> cases cancelling
    | @finish thenFlush => cases thenFlush <;> cases cancelling
    | _ => cases cancelling
  case cancelled =>
    rw [owner]
    intro opened cancelled
    cases before : s.cancelled with
    | true => exact raised (alarmed.cancelled opened before)
    | false =>
      cases move with
      | cancel phase => exact raised (alarmed.sequencer phase)
      | @start rendered =>
        cases rendered <;> exact Bool.noConfusion (before.symm.trans cancelled)
      | _ => exact Bool.noConfusion (before.symm.trans cancelled)
  case failed =>
    rw [owner]
    intro failed
    exact raised (alarmed.failed failed)
  case panicked =>
    exact panicked_of_move alarmed move raised
  case done =>
    rw [owner]
    intro done
    exact Nat.le_trans (alarmed.done done) (sequenced_le_of_move linked.sequenced move)

/-- An owner gives up only because of a failure. -/
theorem raised_of_givesUp (alarmed : s.Alarmed) (linked : s.Linked) (nonempty : s.lanes ≠ [])
    (givesUp : s.OwnerGivesUp) : s.Raised := by
  have opened := Linked.open_of_givesUp linked.owner givesUp
  cases givesUp with
  | raised call phase failure => exact .inl failure
  | refused entry submission? lane =>
    cases cancelled : s.cancelled with
    | true => exact alarmed.cancelled opened cancelled
    | false =>
      -- a lane refuses an entry only if its worker is gone, and nobody leaves without a reason
      exfalso
      have hturn := Nat.mod_lt s.owner.submitted (List.length_pos_iff.2 nonempty)
      have hlane := List.getElem?_eq_getElem hturn
      refine (linked.quiet opened cancelled).1 _ _ hlane ?_
      rw [exited_of_holdsInput (lane _ hlane)]
      trivial
  | told target last phase undone cancelled => exact alarmed.cancelled opened cancelled

/-- An owner that has submitted an entry is not closing. -/
theorem not_closing_of_submission? {entry : Entry} (submission? : s.submission? = some entry) :
    ¬s.ownerAfterSending.phase.Failed ∧ ¬s.ownerAfterSending.phase.Done := by
  rcases phase_ownerAfterSending submission? with
      ⟨_, _, -, phase | ⟨_, phase⟩⟩ | ⟨_, -, phase⟩ <;>
    · rw [phase]
      exact ⟨id, id⟩

/-- An owner that closes because of a failure gave up, or was closing already. -/
theorem givesUp_of_failed (move : s.OwnerMove s') (failed : s'.owner.phase.Failed) :
    s.OwnerGivesUp ∨ s.owner.phase.Failed := by
  cases move with
  | giveUp givesUp => exact .inl givesUp
  | send submission? => exact absurd failed (not_closing_of_submission? submission?).1
  | cancel phase =>
    rw [phase]
    exact .inr trivial
  | closeLane phase | closed phase | join phase | joined phase | joinSequencer phase =>
    rw [phase]
    exact .inr failed
  | finishClose => cases failed
  | _ => exact failed.elim

/-- An owner that closes without a failure has waited for all its entries, or was closing already. -/
theorem submitted_le_of_done (consistent : s.owner.Consistent) (move : s.OwnerMove s')
    (done : s'.owner.phase.Done) (before : s.owner.phase.Done → s.owner.submitted ≤ s.sequenced) :
    s'.owner.submitted ≤ s.sequenced := by
  rw [Owner.Consistent] at consistent
  cases move with
  | finishClose phase reached =>
    rw [phase] at consistent
    rw [← consistent.2]
    exact reached
  | send submission? => exact absurd done (not_closing_of_submission? submission?).2
  | closeLane phase | closed phase | join phase | joined phase | joinSequencer phase =>
    rw [phase] at before
    exact before done
  | cancel => cases done
  | _ => exact done.elim

theorem ownerStep? (alarmed : s.Alarmed) (linked : s.Linked) (nonempty : s.lanes ≠ [])
    (step : s.ownerStep? = some s') : s'.Alarmed := by
  have move := move_of_ownerStep? step
  have raised : s.Raised → s'.Raised := fun before => before.ownerMove linked.owner move step
  obtain ⟨-, sequencer, -, sequenced⟩ := move.frame
  refine ⟨?worker, ?sequencer, ?cancelled, ?failed, ?panicked, ?done⟩
  case worker =>
    intro i lane hlane cancelling
    obtain ⟨before, hbefore, hworker, -⟩ := Linked.lane_of_ownerMove move hlane
    rw [hworker] at cancelling
    exact raised (alarmed.worker i before hbefore cancelling)
  case sequencer =>
    rw [sequencer]
    intro cancelling
    exact raised (alarmed.sequencer cancelling)
  case cancelled =>
    intro opened cancelled
    obtain ⟨before, same⟩ := Linked.open_of_ownerMove move opened
    rw [same] at cancelled
    exact raised (alarmed.cancelled before cancelled)
  case failed =>
    intro failed
    rcases givesUp_of_failed move failed with givesUp | before
    · exact raised (alarmed.raised_of_givesUp linked nonempty givesUp)
    · exact raised (alarmed.failed before)
  case panicked =>
    rw [sequencer]
    intro panicked
    exact (alarmed.panicked panicked).imp_right raised
  case done =>
    rw [sequenced]
    intro done
    exact submitted_le_of_done linked.owner move done alarmed.done

theorem request (alarmed : s.Alarmed) (r : Request) : (s.request r).Alarmed := by
  have raised : s.Raised → (s.request r).Raised := fun before => before.request r
  cases closed : s.owner.closed with
  | true =>
    rw [request_of_closed closed] at raised ⊢
    exact ⟨fun i lane hlane h => raised (alarmed.worker i lane hlane h),
      fun h => raised (alarmed.sequencer h),
      fun opened => Bool.noConfusion (closed.symm.trans opened), False.elim,
      fun h => (alarmed.panicked h).imp_right raised, False.elim⟩
  | false =>
    rw [request_of_open closed] at raised ⊢
    exact ⟨fun i lane hlane h => raised (alarmed.worker i lane hlane h),
      fun h => raised (alarmed.sequencer h), fun opened h => raised (alarmed.cancelled opened h),
      False.elim, fun h => (alarmed.panicked h).imp_right raised, False.elim⟩

end Alarmed

theorem Run.alarmed [BlockCompressor κ] [Sink ω] {settings : Settings} {compressors : List κ}
    {sink : ω} {h : History κ ω} {s : Pipeline κ ω} (nonempty : compressors ≠ [])
    (run : Run (Pipeline.new settings compressors sink) h s) : s.Alarmed := by
  induction run with
  | start => exact .new settings compressors sink
  | @step h s s' party run step ih =>
    cases party with
    | owner => exact ih.ownerStep? run.linked (run.ordered.lanes_ne_nil nonempty) step
    | worker i => exact ih.workerStep? step
    | sequencer => exact ih.sequencerStep? run.linked step
  | request r _ _ ih => exact ih.request r

end Pipeline

end ParallelGzip
