import ParallelGzip.Proofs.Schedules

set_option autoImplicit false

/-! # Parting: how a writer is asked to end does not show

Closing a writer, finishing it and letting go of it are the same call. So whatever a run that ends
with one of them comes to, one that ends with another comes to as well (`Run.parts_as`). If nothing
fails in it that the compressors do not fail on whenever they are given these blocks, it leaves the
same in the sink as any other run in which the same was asked for (`Run.parts_agree`). -/

namespace ParallelGzip

variable {κ ω : Type}

/-- These calls have been made and have succeeded, and then this has been asked for, and nothing
    since. -/
def History.Parts (h : History κ ω) (calls : List Request) (r : Request) : Prop :=
  ∃ (h₁ : History κ ω) (m : Moment κ ω) (h₂ : History κ ω), h = h₁ ++ m :: h₂ ∧
    h₁.requests = calls ∧ m.request? = some r ∧ h₂.requests = [] ∧
    ∀ m' ∈ h₁, ∀ failure, m'.outcome? ≠ some (.error failure)

theorem History.Parts.requests_eq {h : History κ ω} {calls : List Request} {r : Request}
    (parts : h.Parts calls r) : h.requests = calls ++ [r] := by
  obtain ⟨h₁, m, h₂, rfl, rfl, request?, alone, -⟩ := parts
  rw [History.requests_append]
  refine congrArg (h₁.requests ++ ·) ?_
  rw [History.requests, List.filterMap_cons, request?]
  exact congrArg (r :: ·) alone

/-! ## A writer that has answered every call is open -/

/-- The owner goes on, unless it has found a failure. -/
def Owner.GoesOn (o : Owner) : Prop :=
  match o.phase with
  | .ready _ => o.closed = false
  | .checking call => call.closes = false
  | .ending next => next ≠ none
  | .waiting _ last => last = false
  | .closing _ failed | .joining _ failed | .joiningSequencer failed | .reporting failed =>
    failed = true
  | .submitting _ _ | .cancelling => True

namespace Pipeline

theorem goesOn_of_move {s s' : Pipeline κ ω} (goesOn : s.owner.GoesOn)
    (consistent : s.owner.Consistent) (move : s.OwnerMove s')
    (succeeds : ∀ failure, s'.owner.phase ≠ .ready (.error failure)) : s'.owner.GoesOn := by
  rw [Owner.GoesOn] at goesOn
  rw [Owner.Consistent] at consistent
  cases move with
  | giveUp | beginSubmit => trivial
  | submitNothing phase =>
    rw [phase] at consistent
    exact consistent
  | beginFlush phase => exact Option.some_ne_none _
  | beginClose phase =>
    rw [phase] at goesOn
    cases goesOn
  | finishFlush phase =>
    rw [phase] at consistent
    exact consistent.1
  | finishClose phase =>
    rw [phase] at goesOn
    cases goesOn
  | cancel phase => rfl
  | closeLane phase | closed phase | join phase | joined phase | joinSequencer phase =>
    rw [phase] at goesOn
    exact goesOn
  | report phase =>
    rw [phase] at goesOn
    obtain rfl : _ = true := goesOn
    -- there is an error to report
    rcases result : s.closingResult true with failure | n
    · exact absurd (congrArg OwnerPhase.ready result) (succeeds failure)
    · cases (closingResult_eq_ok_iff.1 result).2.1
  | send submission? =>
    rw [Owner.GoesOn]
    dsimp only
    have opened := Linked.open_of_submission? consistent submission?
    rcases phase_ownerAfterSending submission? with
      ⟨rest, total, phase, after | ⟨later, after⟩⟩ | ⟨next, phase, after⟩
    · rw [after]
      exact (Linked.closed_ownerAfterSending (s := s)).trans opened
    · rw [after]
      trivial
    · rw [phase] at goesOn
      rw [after]
      cases next with
      | none => exact absurd rfl goesOn
      | some level => rfl

section Runs

variable [BlockCompressor κ] [Sink ω] {settings : Settings} {compressors : List κ} {sink : ω}
  {h h' : History κ ω} {s s' : Pipeline κ ω} {calls : List Request} {r r' : Request}

/-- As long as nobody asks for anything else, and no call fails, the owner goes on. -/
theorem Run.goesOn (run : Run (Pipeline.new settings compressors sink) h s)
    (unclosed : ∀ r ∈ h.requests, r.call.closes = false)
    (succeeds : ∀ m ∈ h, ∀ failure, m.outcome? ≠ some (.error failure)) : s.owner.GoesOn := by
  induction run with
  | start => rfl
  | @step h s s' party run step ih =>
    rw [History.requests_step] at unclosed
    have before := ih unclosed fun m hm => succeeds m (List.mem_append_left _ hm)
    cases party with
    | owner =>
      refine goesOn_of_move before run.linked.owner (move_of_ownerStep? step) ?_
      intro failure phase
      refine succeeds _ (List.mem_append_right _ List.mem_cons_self) failure ?_
      simp only [Moment.outcome?, phase]
    | worker i => exact (frame_of_workerStep? step).owner ▸ before
    | sequencer => exact (move_of_sequencerStep? step).frame.2 ▸ before
  | @request h s r run returned ih =>
    rw [History.requests_request] at unclosed
    have before := ih (fun r' hr' => unclosed r' (List.mem_append_left _ hr'))
      fun m hm => succeeds m (List.mem_append_left _ hm)
    obtain ⟨result, phase⟩ := returned
    rw [Owner.GoesOn, phase] at before
    rw [request_of_open before]
    exact unclosed r (List.mem_append_right _ List.mem_cons_self)

/-! ## One closing request in place of another -/

/-- Whatever comes of a run that parts from its writer like this comes of one that parts from it
    with another request for the same call. Nothing else happens in it. -/
theorem Run.parts_as (run : Run (Pipeline.new settings compressors sink) h s)
    (unclosed : ∀ r ∈ calls, r.call.closes = false) (parts : h.Parts calls r)
    (same : r'.call = r.call) :
    ∃ h', Run (Pipeline.new settings compressors sink) h' s ∧ h'.Parts calls r' ∧
      h'.mishaps = h.mishaps := by
  obtain ⟨h₁, m, h₂, rfl, rfl, request?, alone, succeeds⟩ := parts
  obtain ⟨upTo, -, behind⟩ := run.cut
  rcases run.act_of_mem (List.mem_append_right _ List.mem_cons_self) with
    ⟨party, act, -⟩ | ⟨asked, act, returned, after⟩
  · simp only [Moment.request?, act, reduceCtorEq] at request?
  · have goesOn := upTo.goesOn unclosed succeeds
    obtain ⟨result, phase⟩ := returned
    rw [Owner.GoesOn, phase] at goesOn
    simp only [Moment.request?, act, Option.some.injEq] at request?
    subst request?
    -- an open writer looks at the call alone
    have changed : m.before.request r' = m.after := by
      rw [after, request_of_open goesOn, request_of_open goesOn, same]
    have asks := upTo.request r' ⟨result, phase⟩
    rw [changed] at asks
    refine ⟨_, asks.append behind, ⟨h₁, ⟨m.before, .request r', m.after⟩, h₂, ?_, rfl, rfl, alone,
      succeeds⟩, ?_⟩
    · rw [List.append_assoc, List.singleton_append]
    · have none : m.mishap? = none := by rw [Moment.mishap?, act]
      rw [History.mishaps_append, History.mishaps_append, History.mishaps_append, List.append_assoc]
      exact congrArg (h₁.mishaps ++ ·) (List.filterMap_cons_none none).symm

/-- If nothing goes wrong all calls succeed. -/
theorem Run.parts_of_requests (nonempty : compressors ≠ [])
    (run : Run (Pipeline.new settings compressors sink) h s) (calm : h.mishaps = [])
    (unclosed : ∀ r ∈ calls, r.call.closes = false) (requests : h.requests = calls ++ [r]) :
    h.Parts calls r := by
  have program := any_closes_dropLast requests unclosed
  obtain ⟨h₁, h₂, rfl, asked, last⟩ := List.filterMap_eq_append_iff.1 requests
  obtain ⟨h₃, m, h₄, rfl, none, request?, alone⟩ := List.filterMap_eq_cons_iff.1 last
  refine ⟨h₁ ++ h₃, m, h₄, (List.append_assoc _ _ _).symm, ?_, request?, alone, ?_⟩
  · rw [History.requests_append, show History.requests h₃ = [] from
      List.filterMap_eq_nil_iff.2 none, List.append_nil]
    exact asked
  · intro m' hm'
    refine run.outcome_ne_error nonempty calm program ?_
    rw [← List.append_assoc]
    exact List.mem_append_left _ hm'

/-! ## In any other order -/

/-- If one run of a writer succeeds, so does every other on a sink that works, and it leaves the same
    in it. -/
theorem Run.finish_agree [RecordingSink ω] (nonempty : compressors ≠ [])
    (run : Run (Pipeline.new settings compressors sink) h s)
    (run' : Run (Pipeline.new settings compressors sink) h' s')
    (unclosed : ∀ r ∈ calls, r.call.closes = false) (requests : h.requests = calls ++ [.finish])
    (requests' : h'.requests = calls ++ [.finish]) (works : h'.SinkWorks) {k : Nat}
    (ready : s.owner.phase = .ready (.ok k)) (returned : s'.Returned) :
    (∃ k, s'.result = .ok k) ∧
      RecordingSink.contents s'.sink = RecordingSink.contents s.sink := by
  have refused : Refused h.requests := requests ▸ refused_program unclosed
  have refused' : Refused h'.requests := requests' ▸ refused_program unclosed
  obtain ⟨planned, made, count, hmade, contents⟩ :=
    run.made_of_closed nonempty refused (run.closed_of_finish ⟨_, ready⟩ requests) ready
  obtain ⟨later, split⟩ := (run'.keepsTo refused').isPrefix
  rw [askedPlan, run'.fits.1, requests', ← requests, planned] at split
  -- an entry that has been submitted in both comes to the same in both
  have enough : h'.entries.length ≤ made.length := by
    rw [count, ← split, List.length_append]
    exact Nat.le_add_right _ _
  have same (p : Nat) (live : p < h'.entries.length) :
      rendering compressors h'.entries p = made[p]? := by
    rw [← rendering_append later live, split]
    exact hmade p (Nat.lt_of_lt_of_le live enough)
  have calm : h'.mishaps = [] := by
    refine run'.mishaps_eq_nil_of_rendering works fun p live none => ?_
    rw [same p live, List.getElem?_eq_none_iff] at none
    exact Nat.not_lt_of_le none (Nat.lt_of_lt_of_le live enough)
  have performs := run'.performs nonempty calm (any_closes_dropLast requests' unclosed)
  obtain ⟨⟨k', ok⟩, -⟩ := performs.result_eq_ok returned
  obtain ⟨result, ready'⟩ := returned
  refine ⟨⟨k', ok⟩, ?_⟩
  rw [Pipeline.result, ready'] at ok
  subst ok
  obtain ⟨planned', made', count', hmade', contents'⟩ :=
    run'.made_of_closed nonempty refused' (run'.closed_of_finish ⟨_, ready'⟩ requests') ready'
  have entries : h'.entries = h.entries := by rw [← planned', ← planned, requests, requests']
  have made_eq : made' = made := by
    refine List.ext_getElem? fun p => ?_
    by_cases live : p < h'.entries.length
    · rw [← hmade' p (count' ▸ live), same p live]
    · rw [List.getElem?_eq_none (by omega), List.getElem?_eq_none (by rw [count, ← entries]; omega)]
  rw [contents', contents, made_eq]

/-- In whatever order the parties take their steps, and whichever request it parts with, a run on a
    sink that works succeeds if another does, and leaves the same in the sink. -/
theorem Run.parts_agree [RecordingSink ω] (nonempty : compressors ≠ [])
    (run : Run (Pipeline.new settings compressors sink) h s)
    (run' : Run (Pipeline.new settings compressors sink) h' s')
    (unclosed : ∀ r ∈ calls, r.call.closes = false) (parts : h.Parts calls r)
    (parts' : h'.Parts calls r') (closes : r.call = .close) (closes' : r'.call = .close)
    (works : h'.SinkWorks) (returned : s.Returned) (returned' : s'.Returned) {k : Nat}
    (ok : s.result = .ok k) :
    (∃ k, s'.result = .ok k) ∧
      RecordingSink.contents s'.sink = RecordingSink.contents s.sink := by
  have same : Request.finish.call = r.call := closes.symm
  have same' : Request.finish.call = r'.call := closes'.symm
  obtain ⟨f, finishes, asked, -⟩ := run.parts_as unclosed parts same
  obtain ⟨f', finishes', asked', mishaps⟩ := run'.parts_as unclosed parts' same'
  obtain ⟨result, ready⟩ := returned
  rw [Pipeline.result, ready] at ok
  subst ok
  refine finishes.finish_agree nonempty finishes' unclosed asked.requests_eq asked'.requests_eq ?_
    ready returned'
  rw [History.SinkWorks, mishaps]
  exact works

end Runs

end Pipeline

end ParallelGzip
