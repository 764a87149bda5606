import ParallelGzip.Proofs.Pipeline.Program
import ParallelGzip.Proofs.Pipeline.Settle

set_option autoImplicit false

/-! # Answers: what calls come to when nothing goes wrong

A call that submits data answers with its length, and every other call with zero. While the owner
carries out a call it keeps the promise of that answer (`OwnerPhase.Promises`), so if nothing goes
wrong all the answers of a run can be told from its requests: `Run.answers`. -/

namespace ParallelGzip

/-- What a call is to answer. -/
def Call.answer : Call → Nat
  | submit data => data.length
  | flush | close => 0

variable {κ ω : Type}

/-- What the calls of a run have come to that have returned. -/
def History.outcomes (h : History κ ω) : List (Except Error Nat) := h.filterMap Moment.outcome?

/-- What the calls of these requests come to when nothing goes wrong. -/
def Request.answers (requests : List Request) : List (Except Error Nat) :=
  requests.map fun r => .ok r.call.answer

theorem History.outcomes_concat (h : History κ ω) (m : Moment κ ω) :
    History.outcomes (h ++ [m]) = h.outcomes ++ m.outcome?.toList := by
  simp only [outcomes, List.filterMap_append]
  cases hm : m.outcome? <;> simp [hm]

/-- The call that is carried out is going to answer this, unless something goes wrong. -/
def OwnerPhase.Promises (answer : Nat) : OwnerPhase → Prop
  | ready result => result = .ok answer
  | checking call => call.answer = answer
  | submitting _ total => total = answer
  | ending _ | waiting _ _ | closing _ _ | joining _ _ | joiningSequencer _ | reporting _ =>
    answer = 0
  | cancelling => False

namespace Pipeline

/-- All calls have answered as they are to, but the last one if it has not returned, and that one is
    going to. -/
structure Answers (h : History κ ω) (s : Pipeline κ ω) : Prop where
  outcomes : h.outcomes = Request.answers (if s.hasReturned then h.requests else h.requests.dropLast)
  promises : ∀ r, h.requests.getLast? = some r → s.owner.phase.Promises r.call.answer
  begun : s.hasReturned = false → h.requests ≠ []

namespace Answers

variable {h : History κ ω} {s s' : Pipeline κ ω} {m : Moment κ ω}

theorem hasReturned_of_returned (returned : s.Returned) : s.hasReturned = true := by
  obtain ⟨result, phase⟩ := returned
  rw [hasReturned, phase]

/-- While a call is carried out it has no outcome. -/
theorem outcome?_of_hasReturned (act : Act) (running : s'.hasReturned = false) :
    (Moment.mk s act s').outcome? = none := by
  unfold hasReturned at running
  unfold Moment.outcome?
  split at running
  · cases running
  · next other =>
    split
    · next phase => exact absurd phase (other _)
    · next phase => exact absurd phase (other _)
    · rfl

theorem new (settings : Settings) (compressors : List κ) (sink : ω) :
    Answers [] (Pipeline.new settings compressors sink) where
  outcomes := rfl
  promises := nofun
  begun := nofun

/-- What leaves the owner alone leaves its answers alone. -/
theorem of_eq (answers : s.Answers h) (owner : s'.owner = s.owner)
    (outcome? : m.outcome? = none) (request? : m.request? = none) : s'.Answers (h ++ [m]) := by
  have outcomes : History.outcomes (h ++ [m]) = h.outcomes := by
    rw [History.outcomes_concat, outcome?, Option.toList_none, List.append_nil]
  have requests : History.requests (h ++ [m]) = h.requests := by
    rw [History.requests_concat, request?, Option.toList_none, List.append_nil]
  have same : s'.hasReturned = s.hasReturned := by
    rw [hasReturned, hasReturned, owner]
  obtain ⟨before, promises, begun⟩ := answers
  refine ⟨?_, ?_, ?_⟩
  · rw [outcomes, requests, same]
    exact before
  · rw [requests, owner]
    exact promises
  · rw [requests, same]
    exact begun

/-- A move of the owner keeps the promise. -/
theorem promises_ownerMove {answer : Nat} (promises : s.owner.phase.Promises answer)
    (move : s.OwnerMove s') (goesOn : ¬s.OwnerGivesUp)
    (succeeds : ∀ failed, s.owner.phase = .reporting failed → s.closingResult failed = .ok 0) :
    s'.owner.phase.Promises answer := by
  cases move with
  | giveUp givesUp => exact absurd givesUp goesOn
  | submitNothing phase | beginSubmit phase | beginFlush phase | beginClose phase
  | finishFlush phase =>
    rw [phase] at promises
    cases promises
    rfl
  | finishClose phase | closeLane phase | closed phase | join phase | joined phase
  | joinSequencer phase =>
    rw [phase] at promises
    exact promises
  | cancel phase =>
    rw [phase] at promises
    exact promises.elim
  | report phase =>
    rw [phase] at promises
    cases promises
    exact succeeds _ phase
  | send submission? =>
    rcases phase_ownerAfterSending submission? with
      ⟨rest, total, phase, after | ⟨later, after⟩⟩ | ⟨next, phase, after⟩
    · rw [phase] at promises
      cases promises
      simp only [after]
      rfl
    all_goals
      rw [phase] at promises
      simp only [after]
      exact promises

theorem ownerMove (answers : s.Answers h) (running : s.hasReturned = false)
    (move : s.OwnerMove s') (goesOn : ¬s.OwnerGivesUp)
    (succeeds : ∀ failed, s.owner.phase = .reporting failed → s.closingResult failed = .ok 0) :
    s'.Answers (h ++ [⟨s, .step .owner, s'⟩]) := by
  obtain ⟨outcomes, promises, begun⟩ := answers
  -- the call that is carried out is the one requested last
  obtain ⟨before, r, last⟩ := (List.eq_nil_or_concat h.requests).resolve_left (begun running)
  rw [List.concat_eq_append] at last
  have requests := (History.requests_step h s s' .owner).trans last
  have promise := promises_ownerMove (promises r (by rw [last, List.getLast?_concat])) move goesOn
    succeeds
  rw [running, last] at outcomes
  simp only [Bool.false_eq_true, if_false, List.dropLast_concat] at outcomes
  refine ⟨?_, ?_, ?_⟩
  · rw [History.outcomes_concat, outcomes, requests]
    cases returned : s'.hasReturned with
    | true =>
      obtain ⟨result, phase⟩ := returned_of_hasReturned returned
      rw [phase] at promise
      cases promise
      simp [Moment.outcome?, phase, Request.answers]
    | false => simp [outcome?_of_hasReturned _ returned]
  · rw [requests, List.getLast?_concat]
    rintro _ ⟨⟩
    exact promise
  · rw [requests]
    exact fun _ => by simp

/-- A request made of a writer that is open. -/
theorem request (answers : s.Answers h) (returned : s.Returned) (opened : s.owner.closed = false)
    (r : Request) : (s.request r).Answers (h ++ [⟨s, .request r, s.request r⟩]) := by
  have requests := History.requests_request h s (s.request r) r
  have outcomes : History.outcomes (h ++ [⟨s, .request r, s.request r⟩]) = h.outcomes := by
    rw [History.outcomes_concat, request_of_open opened]
    exact List.append_nil _
  have before := answers.outcomes
  rw [hasReturned_of_returned returned] at before
  rw [request_of_open opened] at requests outcomes ⊢
  refine ⟨?_, ?_, ?_⟩
  · rw [outcomes, before, requests, List.dropLast_concat]
    rfl
  · rw [requests, List.getLast?_concat]
    rintro _ ⟨⟩
    rfl
  · rw [requests]
    exact fun _ => by simp

/-- Between two calls all calls have answered as they are to. -/
theorem of_returned (answers : s.Answers h) (returned : s.Returned) :
    h.outcomes = Request.answers h.requests ∧
      ∀ r, h.requests.getLast? = some r → s.result = .ok r.call.answer := by
  obtain ⟨outcomes, promises, -⟩ := answers
  rw [hasReturned_of_returned returned, if_pos rfl] at outcomes
  obtain ⟨result, phase⟩ := returned
  rw [phase] at promises
  rw [Pipeline.result, phase]
  exact ⟨outcomes, promises⟩

end Answers

section Calm

variable [BlockCompressor κ] [Sink ω] {settings : Settings} {compressors : List κ} {sink : ω}
  {h : History κ ω} {s : Pipeline κ ω}

/-- As long as nothing goes wrong, and nothing is asked for behind the last member, calls answer as
    they are to. -/
theorem Run.answers (nonempty : compressors ≠ [])
    (run : Run (Pipeline.new settings compressors sink) h s) (calm : h.mishaps = [])
    (program : (h.requests.dropLast.any fun r => r.call.closes) = false) : s.Answers h := by
  induction run with
  | start => exact .new settings compressors sink
  | @step h s s' party run step ih =>
    rw [History.mishaps_append, List.append_eq_nil_iff] at calm
    rw [History.requests_step] at program
    have before := ih calm.1 program
    cases party with
    | owner =>
      have running : s.hasReturned = false := by
        rw [Bool.eq_false_iff]
        intro returned
        exact not_returned_of_ownerStep? step (returned_of_hasReturned returned)
      exact before.ownerMove running (move_of_ownerStep? step) (run.not_givesUp nonempty calm.1)
        fun _ => run.closingResult_eq_ok nonempty calm.1
    | worker i => exact before.of_eq (frame_of_workerStep? step).owner rfl rfl
    | sequencer => exact before.of_eq (move_of_sequencerStep? step).frame.2 rfl rfl
  | @request h s r run returned ih =>
    rw [History.mishaps_append, List.append_eq_nil_iff] at calm
    rw [History.requests_request, List.dropLast_concat] at program
    have before : (h.requests.dropLast.any fun r => r.call.closes) = false := by
      rw [List.any_eq_false] at program ⊢
      exact fun r hr => program r (List.dropLast_subset _ hr)
    have performs := run.performs nonempty calm.1 before
    exact (ih calm.1 before).request returned ((performs.result_eq_ok returned).2.trans program) r

end Calm

end Pipeline

end ParallelGzip
