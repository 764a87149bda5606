import ParallelGzip.Proofs.Pipeline.History

set_option autoImplicit false

/-! # Replay: runs that are given step by step

A list of steps and requests either cannot be carried out or leads to one state. What it leads to
can be computed, and so can the history of the way there: where a statement on all runs needs a run,
it is one of these. -/

namespace ParallelGzip

namespace Pipeline

variable {κ ω : Type} [BlockCompressor κ] [Sink ω] {start s s' : Pipeline κ ω} {h : History κ ω}

/-- What these parties come to when each takes a step, one after the other. -/
def follow? (s : Pipeline κ ω) : List Party → Option (Pipeline κ ω)
  | [] => some s
  | party :: parties =>
    match s.step? party with
    | some s => s.follow? parties
    | none => none

theorem Run.follow {parties : List Party} (run : Run start h s)
    (follows : s.follow? parties = some s') : ∃ h', Run start h' s' := by
  induction parties generalizing h s with
  | nil =>
    cases follows
    exact ⟨h, run⟩
  | cons party parties ih =>
    rw [follow?] at follows
    split at follows
    · next step => exact ih (run.step step) follows
    · cases follows

/-- What comes of steps and requests, one after the other. A request is made when the call before
    has returned. -/
def replay? (s : Pipeline κ ω) : List Act → Option (Pipeline κ ω)
  | [] => some s
  | .step party :: acts => (s.step? party).bind fun s => s.replay? acts
  | .request r :: acts =>
    match s.owner.phase with
    | .ready _ => (s.request r).replay? acts
    | _ => none

/-- Whether the last call has returned, as a test. -/
def hasReturned (s : Pipeline κ ω) : Bool :=
  match s.owner.phase with
  | .ready _ => true
  | _ => false

omit [BlockCompressor κ] [Sink ω] in
theorem returned_of_hasReturned (returned : s.hasReturned = true) : s.Returned := by
  unfold hasReturned at returned
  split at returned
  · next result phase => exact ⟨result, phase⟩
  · cases returned

/-- The moments of steps and requests, one after the other, as far as there are such steps. -/
def retrace (s : Pipeline κ ω) : List Act → History κ ω
  | [] => []
  | .step party :: acts =>
    match s.step? party with
    | some s' => ⟨s, .step party, s'⟩ :: s'.retrace acts
    | none => []
  | .request r :: acts => ⟨s, .request r, s.request r⟩ :: (s.request r).retrace acts

/-- What can be replayed is a run. -/
theorem Run.replay {acts : List Act} (run : Run start h s) (replays : s.replay? acts = some s') :
    Run start (h ++ s.retrace acts) s' := by
  induction acts generalizing h s with
  | nil =>
    cases replays
    rw [retrace, List.append_nil]
    exact run
  | cons act acts ih =>
    cases act with
    | step party =>
      obtain ⟨between, step, later⟩ := Option.bind_eq_some_iff.1 replays
      rw [retrace, step, List.append_cons]
      exact ih (run.step step) later
    | request r =>
      rw [replay?] at replays
      split at replays
      · next phase =>
        rw [retrace, List.append_cons]
        exact ih (run.request r ⟨_, phase⟩) replays
      · cases replays

theorem requests_retrace {acts : List Act} (replays : s.replay? acts = some s') :
    (s.retrace acts).requests = acts.filterMap fun | .request r => some r | .step _ => none := by
  induction acts generalizing s with
  | nil => rfl
  | cons act acts ih =>
    cases act with
    | step party =>
      obtain ⟨between, step, later⟩ := Option.bind_eq_some_iff.1 replays
      rw [retrace, step]
      exact ih later
    | request r =>
      rw [replay?] at replays
      split at replays
      · exact congrArg (r :: ·) (ih replays)
      · cases replays

omit [BlockCompressor κ] [Sink ω] in
/-- A history is cut at a moment at which a call returns. -/
theorem exists_moment {n : Nat} {outcome : Except Error Nat}
    (found : h[n]?.bind Moment.outcome? = some outcome) :
    ∃ m, h = h.take n ++ m :: h.drop (n + 1) ∧ h.take (n + 1) = h.take n ++ [m] ∧
      m.outcome? = some outcome := by
  obtain ⟨m, here, returns⟩ := Option.bind_eq_some_iff.1 found
  obtain ⟨live, rfl⟩ := List.getElem?_eq_some_iff.1 here
  refine ⟨_, ?_, List.take_append_getElem live |>.symm, returns⟩
  rw [← List.drop_eq_getElem_cons live, List.take_append_drop]

/-- What can be replayed is a run with the requests that are made. -/
theorem Run.exists_replay {acts : List Act} (run : Run start h s)
    (replays : s.replay? acts = some s') :
    ∃ h', Run start h' s' ∧ h'.requests =
      h.requests ++ acts.filterMap fun | .request r => some r | .step _ => none :=
  ⟨_, run.replay replays, by rw [History.requests_append, requests_retrace replays]⟩

end Pipeline

end ParallelGzip
