import Mathlib.Data.List.Forall2
import ParallelGzip.Proofs.Pipeline.Contents
import ParallelGzip.Proofs.Pipeline.Program

set_option autoImplicit false

/-! # Barriers: when the end of a member is done

A call that ends a member and returns without an error leaves nothing on its way: nothing has gone
wrong so far, no call has returned an error, the sink has been flushed behind the last byte, and the
header that follows is that of the writer's level. Each of these is a fact about runs, which
`Writer.members_whole` puts together with what the entries stand for. -/

namespace ParallelGzip

variable {κ ω : Type}

/-! ## Requests to close -/

/-- The call that is being carried out will close the writer, or the writer is closed. -/
def Owner.Closes (o : Owner) : Prop :=
  o.closed = true ∨
    match o.phase with
    | .checking call => call.closes = true
    | .ending next => next = none
    | .waiting _ last => last = true
    | .cancelling => True
    | _ => False

/-- The sink has been flushed without a failure, and not been touched since. -/
def History.Flushed [Sink ω] (h : History κ ω) (sink : ω) : Prop :=
  ∃ m ∈ h, m.act = .step .sequencer ∧ m.before.sequencer.phase = .flushing ∧
    Sink.flush m.before.sink = (.done, sink)

theorem History.Flushed.append [Sink ω] {h : History κ ω} {sink : ω} (flushed : h.Flushed sink)
    (more : History κ ω) : History.Flushed (h ++ more) sink := by
  obtain ⟨m, hm, flush⟩ := flushed
  exact ⟨m, List.mem_append_left _ hm, flush⟩

/-! ## What becomes of each entry -/

section Rendering

variable [BlockCompressor κ] {R : Rendered → Entry → Prop} {I : κ → Prop} {compressor after : κ}
  {compressors : List κ} {entries : List Entry}

/-- What holds of whatever a compressor makes of an entry, as long as the compressor keeps `I`,
    holds all along the entries. -/
theorem forall₂_of_compressEntries {made : List Rendered}
    (each : ∀ c entry rendered c', I c → compressEntry c entry = some (rendered, c') →
      R rendered entry ∧ I c')
    (start : I compressor) (result : compressEntries compressor entries = some (made, after)) :
    List.Forall₂ R made entries := by
  induction entries generalizing compressor made with
  | nil =>
    cases result
    exact .nil
  | cons entry entries ih =>
    rw [compressEntries] at result
    split at result
    · cases result
    · next first =>
      split at result
      · cases result
      · next rest =>
        cases result
        obtain ⟨now, keeps⟩ := each _ _ _ _ start first
        exact .cons now (ih keeps rest)

theorem exists_entry_of_rendering {p : Nat} {rendered : Rendered}
    (each : ∀ c entry rendered c', I c → compressEntry c entry = some (rendered, c') →
      R rendered entry ∧ I c')
    (all : ∀ c ∈ compressors, I c) (result : rendering compressors entries p = some rendered) :
    ∃ entry, entries[p]? = some entry ∧ R rendered entry := by
  unfold rendering at result
  split at result
  · cases result
  · next compressor hcompressor =>
    have turn := (List.getElem?_eq_some_iff.1 hcompressor).1
    split at result
    · cases result
    · next made after hmade =>
      have related := forall₂_of_compressEntries each (all _ (List.mem_of_getElem? hcompressor)) hmade
      obtain ⟨live, rfl⟩ := List.getElem?_eq_some_iff.1 result
      have live' := related.length_eq ▸ live
      refine ⟨_, ?_, related.get live live'⟩
      rw [← getElem?_turns (Nat.zero_lt_of_lt turn), List.get_eq_getElem, List.getElem_take,
        List.getElem?_eq_getElem]

/-- The same of several entries one behind the other. -/
theorem forall₂_of_rendering {made : List Rendered}
    (each : ∀ c entry rendered c', I c → compressEntry c entry = some (rendered, c') →
      R rendered entry ∧ I c')
    (all : ∀ c ∈ compressors, I c)
    (results : ∀ p, p < made.length → rendering compressors entries p = made[p]?) :
    List.Forall₂ R made (entries.take made.length) := by
  have found (p : Nat) (live : p < made.length) :
      ∃ entry, entries[p]? = some entry ∧ R made[p] entry :=
    exists_entry_of_rendering each all ((results p live).trans (List.getElem?_eq_getElem live))
  have enough : made.length ≤ entries.length := by
    by_contra few
    obtain ⟨entry, listed, -⟩ := found entries.length (by omega)
    rw [List.getElem?_eq_none (Nat.le_refl _)] at listed
    cases listed
  refine List.forall₂_iff_get.2 ⟨by rw [List.length_take, Nat.min_eq_left enough], ?_⟩
  intro p live live'
  obtain ⟨entry, listed, related⟩ := found p live
  obtain ⟨_, rfl⟩ := List.getElem?_eq_some_iff.1 listed
  rwa [List.get_eq_getElem, List.get_eq_getElem, List.getElem_take]

/-- The end of a member passes through. -/
theorem rendering_memberEnd {p : Nat} {rendered : Rendered} {next : Option Nat}
    (entry : entries[p]? = some (.memberEnd next))
    (result : rendering compressors entries p = some rendered) : rendered = .memberEnd next := by
  obtain ⟨found, hfound, passes⟩ := exists_entry_of_rendering
    (R := fun rendered entry => ∀ next, entry = .memberEnd next → rendered = .memberEnd next)
    (I := fun _ : κ => True) (by
      intro c entry rendered c' _ result
      refine ⟨?_, trivial⟩
      rintro next rfl
      cases result
      rfl) (fun _ _ => trivial) result
  rw [entry, Option.some.injEq] at hfound
  exact passes next hfound.symm

end Rendering

namespace Pipeline

variable {s s' : Pipeline κ ω} {h : History κ ω}

theorem closes_of_move (move : s.OwnerMove s') (closes : s.owner.Closes) : s'.owner.Closes := by
  rcases closes with closed | coming
  · left
    cases after : s'.owner.closed with
    | true => rfl
    | false => exact (Linked.open_of_ownerMove move after).1.symm.trans closed
  · cases move with
    | giveUp => exact .inr trivial
    | finishClose | cancel => exact .inl rfl
    | beginClose phase => exact .inr rfl
    | submitNothing phase | beginSubmit phase | beginFlush phase =>
      rw [phase] at coming
      cases coming
    | finishFlush phase =>
      rw [phase] at coming
      cases coming
    | closeLane phase | closed phase | join phase | joined phase | joinSequencer phase
    | report phase =>
      rw [phase] at coming
      exact coming.elim
    | send submission? =>
      rcases phase_ownerAfterSending submission? with ⟨rest, total, phase, -⟩ | ⟨next, phase, after⟩
      · rw [phase] at coming
        exact coming.elim
      · rw [phase] at coming
        right
        rw [after, coming]
        rfl

section Run

variable [BlockCompressor κ] [Sink ω] {start : Pipeline κ ω}

/-- A writer that has been asked to close has been closed when the call has returned. -/
theorem Run.closes (run : Run start h s)
    (asked : (h.requests.any fun r => r.call.closes) = true) : s.owner.Closes := by
  induction run with
  | start => cases asked
  | @step h s s' party run step ih =>
    rw [History.requests_step] at asked
    have before := ih asked
    cases party with
    | owner => exact closes_of_move (move_of_ownerStep? step) before
    | worker i => exact (frame_of_workerStep? step).owner ▸ before
    | sequencer => exact (move_of_sequencerStep? step).frame.2 ▸ before
  | @request h s r run returned ih =>
    cases closed : s.owner.closed with
    | true =>
      rw [request_of_closed closed]
      exact .inl closed
    | false =>
      rw [request_of_open closed]
      rw [History.requests_append, List.any_append, Bool.or_eq_true] at asked
      rcases asked with earlier | now
      · -- the call before has returned, and has not closed the writer
        obtain ⟨result, phase⟩ := returned
        have before := ih earlier
        rw [Owner.Closes, closed, phase] at before
        simp at before
      · have closes : r.call.closes = true := by
          simpa [History.requests, Moment.request?] using now
        exact .inr closes

/-- Nobody has asked to close a writer that is open when a call has returned. -/
theorem Run.not_asked (run : Run start h s) (returned : s.Returned)
    (opened : s.owner.closed = false) : (h.requests.any fun r => r.call.closes) = false := by
  obtain ⟨result, phase⟩ := returned
  cases asked : h.requests.any fun r => r.call.closes with
  | false => rfl
  | true =>
    have closes := run.closes asked
    rw [Owner.Closes, opened, phase] at closes
    simp at closes

end Run

/-! ## Flushing -/

/-- The last entry taken ends a member. -/
def EndsMember (taken : List Rendered) : Prop := ∃ next, taken.getLast? = some (.memberEnd next)

/-- Behind the last byte of the end of a member the sequencer flushes the sink before it goes on:
    in this phase, at entry `index`, it has done so if the last entry taken is done. -/
def Passes (phase : SequencerPhase) (index : Nat) (taken : List Rendered) (flushed : Prop) : Prop :=
  match phase with
  | .received rendered => taken.getLast? = some rendered
  | .writing _ thenFlush => EndsMember taken → thenFlush = true
  | .flushing => True
  | .receiving | .advancing => EndsMember taken → flushed
  | _ => taken.length ≤ index → EndsMember taken → flushed

theorem Passes.mono {phase : SequencerPhase} {index : Nat} {taken : List Rendered} {p q : Prop}
    (passes : Passes phase index taken p) (imp : p → q) : Passes phase index taken q := by
  cases phase with
  | received | writing | flushing => exact passes
  | receiving | advancing => exact fun ends => imp (passes ends)
  | _ => exact fun done ends => imp (passes done ends)

/-- A sequencer that does not come out with an entry has taken none. -/
theorem taken_of_not_received (h : History κ ω) {s s' : Pipeline κ ω}
    (other : ∀ rendered, s'.sequencer.phase ≠ .received rendered) :
    History.taken (h ++ [⟨s, .step .sequencer, s'⟩]) = h.taken := by
  refine History.taken_concat_of_none h ?_
  unfold Moment.taken?
  split
  · next phase => exact absurd phase (other _)
  · rfl

theorem passes_of_move [Sink ω] (move : s.SequencerMove s')
    (took : s.sequencer.phase.Took s.sequencer.index h.taken.length)
    (passes : Passes s.sequencer.phase s.sequencer.index h.taken (h.Flushed s.sink)) :
    Passes s'.sequencer.phase s'.sequencer.index
      (History.taken (h ++ [⟨s, .step .sequencer, s'⟩]))
      (History.Flushed (h ++ [⟨s, .step .sequencer, s'⟩]) s'.sink) := by
  have keep : (∀ rendered, s'.sequencer.phase ≠ .received rendered) →
      History.taken (h ++ [⟨s, .step .sequencer, s'⟩]) = h.taken := taken_of_not_received h
  have earlier : h.Flushed s.sink →
      History.Flushed (h ++ [⟨s, .step .sequencer, s'⟩]) s.sink := fun flushed => flushed.append _
  cases move with
  | receive phase turn outbox =>
    rw [History.taken_concat]
    exact List.getLast?_concat
  | leave leaves =>
    rw [keep (by simp)]
    intro done ends
    cases leaves with
    | abandoned lane phase =>
      rw [phase] at passes
      exact earlier (passes ends)
    | told rendered phase =>
      -- the entry that was taken last is not done
      rw [phase, SequencerPhase.Took] at took
      dsimp only at done
      omega
  | @start rendered phase going =>
    rw [beginWriting_eq] at keep ⊢
    rw [keep (by simp)]
    rw [phase] at passes
    rintro ⟨next, last⟩
    rw [show h.taken.getLast? = some rendered from passes] at last
    cases last
    rfl
  | @finish thenFlush phase =>
    rw [phase] at passes
    cases thenFlush with
    | true => trivial
    | false =>
      rw [keep (by simp)]
      exact fun ends => absurd (passes ends) Bool.false_ne_true
  | write phase =>
    rw [keep (by simp)]
    rw [phase] at passes
    exact passes
  | interrupted phase =>
    rw [keep (by simp [phase])]
    rw [phase] at passes ⊢
    exact passes
  | flush phase result =>
    rw [keep (by simp)]
    intro _
    exact ⟨_, List.mem_append_right _ List.mem_cons_self, rfl, phase, result⟩
  | fail mishap? =>
    rw [keep (by simp)]
    intro done _
    have behind : h.taken.length = s.sequencer.index + 1 := by
      unfold sinkMishap? at mishap?
      split at mishap?
      · next phase => rwa [phase] at took
      · next phase => rwa [phase] at took
      · cases mishap?
    dsimp only at done
    omega
  | advance phase =>
    rw [keep (by simp)]
    rw [phase] at passes
    exact fun ends => earlier (passes ends)
  | record phase | cancel phase | closeLane phase | exit phase =>
    rw [keep (by simp)]
    rw [phase] at passes
    exact fun done ends => earlier (passes done ends)

section New

variable [BlockCompressor κ] [Sink ω] {settings : Settings} {compressors : List κ} {sink : ω}

theorem Run.passes (run : Run (Pipeline.new settings compressors sink) h s) :
    Passes s.sequencer.phase s.sequencer.index h.taken (h.Flushed s.sink) := by
  induction run with
  | start =>
    rintro ⟨next, none⟩
    cases none
  | @step h s s' party run step ih =>
    cases party with
    | owner =>
      obtain ⟨-, sequencer, sink, -⟩ := (move_of_ownerStep? step).frame
      rw [sequencer, sink, History.taken_concat_of_none h rfl]
      exact ih.mono fun flushed => flushed.append _
    | worker i =>
      have frame := frame_of_workerStep? step
      rw [frame.sequencer, frame.sink, History.taken_concat_of_none h rfl]
      exact ih.mono fun flushed => flushed.append _
    | sequencer => exact passes_of_move (move_of_sequencerStep? step) run.ordered.taken_length ih
  | @request h s r run returned ih =>
    obtain ⟨phase, after⟩ := request_frame s r
    rw [History.taken_concat_of_none h rfl, after]
    exact ih.mono fun flushed => flushed.append _

/-- When all entries are done and the last one ends a member, the sink has been flushed and not been
    touched since. -/
theorem Run.flushed (nonempty : compressors ≠ [])
    (run : Run (Pipeline.new settings compressors sink) h s)
    (done : h.entries.length ≤ s.sequencer.index) {next : Option Nat}
    (last : h.entries.getLast? = some (.memberEnd next)) : h.Flushed s.sink := by
  have ordered := run.ordered
  have took := ordered.taken_length
  have passes := run.passes
  have few := ordered.taken_length_le nonempty
  have many := took.le
  have ends : EndsMember h.taken := by
    refine ⟨next, ?_⟩
    rw [List.getLast?_eq_getElem?] at last ⊢
    have count : h.taken.length = h.entries.length := by omega
    obtain ⟨live, -⟩ := List.getElem?_eq_some_iff.1 last
    have found := List.getElem?_eq_getElem (l := h.taken) (i := h.entries.length - 1) (by omega)
    rw [count, found]
    exact congrArg some (rendering_memberEnd last (ordered.rendering_of_taken nonempty found))
  unfold Passes at passes
  split at passes
  -- nothing has been taken that is not done
  · next phase =>
    rw [phase, SequencerPhase.Took] at took
    omega
  · next phase =>
    rw [phase, SequencerPhase.Took] at took
    omega
  · next phase =>
    rw [phase, SequencerPhase.Took] at took
    omega
  · exact passes ends
  · exact passes ends
  · exact passes (by omega) ends

/-- The headers that the entries announce are of the level that was asked for. -/
theorem Run.level_eq (run : Run (Pipeline.new settings compressors sink) h s) :
    (∀ level, s.owner.phase = .ending (some level) → level = settings.level) ∧
      ∀ level, .memberEnd (some level) ∈ h.entries → level = settings.level := by
  induction run with
  | start => exact ⟨nofun, nofun⟩
  | @step h s s' party run step ih =>
    obtain ⟨announces, announced⟩ := ih
    cases party with
    | owner =>
      have move := move_of_ownerStep? step
      constructor
      · intro level phase
        cases move with
        | beginFlush before =>
          cases phase
          rw [run.fits.1]
        | send submission? =>
          rcases phase_ownerAfterSending submission? with
            ⟨rest, total, -, after | ⟨later, after⟩⟩ | ⟨next, -, after⟩ <;>
          · dsimp only at phase
            rw [after] at phase
            cases phase
        | _ => cases phase
      · intro level found
        cases move.touches with
        | sent entry lane submission? turn worker lanes submitted =>
          rw [History.entries_of_submitted_succ h submission? submitted] at found
          rcases List.mem_append.1 found with before | now
          · exact announced level before
          · rw [← List.mem_singleton.1 now] at submission?
            refine announces level ?_
            unfold Pipeline.submission? at submission?
            split at submission?
            · cases submission?
            · next phase =>
              cases submission?
              exact phase
            · cases submission?
        | nothing lanes submitted | detached i lane lane? lanes submitted =>
          rw [History.entries_of_submitted_eq h submitted] at found
          exact announced level found
    | worker i =>
      rw [History.entries_concat_of_none h rfl, (frame_of_workerStep? step).owner]
      exact ⟨announces, announced⟩
    | sequencer =>
      rw [History.entries_concat_of_none h rfl, (move_of_sequencerStep? step).frame.2]
      exact ⟨announces, announced⟩
  | @request h s r run returned ih =>
    refine ⟨?_, ?_⟩
    · intro level phase
      cases closed : s.owner.closed with
      | true =>
        rw [request_of_closed closed] at phase
        cases phase
      | false =>
        rw [request_of_open closed] at phase
        cases phase
    · rw [History.entries_concat_of_none h rfl]
      exact ih.2

/-! ## Calls that return without an error -/

/-- As long as nothing goes wrong no call returns an error. -/
theorem Run.outcome_ne_error (nonempty : compressors ≠ [])
    (run : Run (Pipeline.new settings compressors sink) h s) (calm : h.mishaps = [])
    (program : (h.requests.dropLast.any fun r => r.call.closes) = false) {m : Moment κ ω}
    (hm : m ∈ h) (failure : Error) : m.outcome? ≠ some (.error failure) := by
  obtain ⟨h₁, h₂, rfl⟩ := List.append_of_mem hm
  intro outcome?
  have upTo := run.split.2
  have phase := Moment.phase_of_outcome? outcome?
  have split : h₁ ++ m :: h₂ = h₁ ++ [m] ++ h₂ := by simp
  rw [split] at calm program
  rw [History.mishaps_append, List.append_eq_nil_iff] at calm
  rw [History.requests_append, List.any_eq_false] at program
  have performs := upTo.performs nonempty calm.1 (by
    rw [List.any_eq_false]
    intro r hr
    refine program r ?_
    rw [List.dropLast_append]
    split
    · exact hr
    · exact List.mem_append_left _ (List.dropLast_subset _ hr))
  obtain ⟨⟨n, ok⟩, -⟩ := performs.result_eq_ok ⟨_, phase⟩
  rw [Pipeline.result, phase] at ok
  cases ok

end New

end Pipeline

end ParallelGzip
