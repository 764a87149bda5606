import Mathlib.Data.List.Induction
import ParallelGzip.Proofs.Pipeline.Moves

set_option autoImplicit false

/-! # Histories: what happens while a writer runs

A history is the list of the moments of a run: at each of them a party takes a step or, when no call
is running, the caller makes a request. `Run start history s` says that the history leads from
`start` to `s`. Every order of steps that the parties allow is a history, so what is shown of all
runs holds whatever the order. What can be seen at a moment (an entry submitted, an entry taken by
the sequencer, a mishap, a failure left in the slot, the outcome of a call) is computed from it. -/

namespace ParallelGzip

/-! ## Requests -/

/-- What the caller can ask of a writer. -/
inductive Request
  | submit (data : Bytes)
  | flushMember
  | close
  /-- Close the writer and give its sink back. -/
  | finish
  /-- Let go of the writer, which closes it. -/
  | drop

namespace Request

/-- The call that carries out a request. -/
def call : Request → Call
  | submit data => .submit data
  | flushMember => .flush
  | close | finish | drop => .close

/-- What a closed writer answers: it refuses everything but being closed again. -/
def answerClosed : Request → Except Error Nat
  | submit _ | flushMember | finish => .error .closed
  | close | drop => .ok 0

end Request

variable {κ ω : Type}

namespace Pipeline

/-- Whether the last call has returned. -/
def Returned (s : Pipeline κ ω) : Prop := ∃ result, s.owner.phase = .ready result

/-- An owner that can take a step has not returned. -/
theorem not_returned_of_ownerStep? {s s' : Pipeline κ ω} (step : s.ownerStep? = some s') :
    ¬s.Returned := by
  rintro ⟨result, ready⟩
  simp [ownerStep?, ready] at step

/-- Make a request. -/
def request (s : Pipeline κ ω) (r : Request) : Pipeline κ ω :=
  if s.owner.closed then s.own (.ready r.answerClosed) else s.begin r.call

theorem request_of_closed {s : Pipeline κ ω} (closed : s.owner.closed = true) (r : Request) :
    s.request r = s.own (.ready r.answerClosed) := by
  rw [request, if_pos closed]

theorem request_of_open {s : Pipeline κ ω} (closed : s.owner.closed = false) (r : Request) :
    s.request r = s.own (.checking r.call) := by
  simp only [request, begin, closed, Bool.false_eq_true, if_false]

/-- A request touches the owner alone, and of it only what it is about to do. -/
theorem request_frame (s : Pipeline κ ω) (r : Request) :
    ∃ phase, s.request r = { s with owner := { s.owner with phase := phase } } := by
  cases closed : s.owner.closed with
  | false => exact ⟨_, request_of_open closed r⟩
  | true => exact ⟨_, request_of_closed closed r⟩

end Pipeline

/-! ## Moments -/

/-- What happens at one moment. -/
inductive Act
  | step (party : Pipeline.Party)
  | request (r : Request)

/-- A moment of a run, with the states before and after it. -/
structure Moment (κ ω : Type) where
  before : Pipeline κ ω
  act : Act
  after : Pipeline κ ω

namespace Moment

/-- The entry that the owner submits. -/
def submission? (m : Moment κ ω) : Option Entry :=
  match m.act with
  | .step .owner =>
    if m.before.owner.submitted < m.after.owner.submitted then m.before.submission? else none
  | _ => none

/-- The entry that the sequencer takes. -/
def taken? (m : Moment κ ω) : Option Rendered :=
  match m.act, m.after.sequencer.phase with
  | .step .sequencer, .received rendered => some rendered
  | _, _ => none

/-- What goes wrong. -/
def mishap? [BlockCompressor κ] [Sink ω] (m : Moment κ ω) : Option Mishap :=
  match m.act with
  | .step (.worker i) => m.before.lanes[i]?.bind Lane.mishap?
  | .step .sequencer => m.before.sinkMishap?
  | _ => none

/-- The failure that a party leaves in the slot, where it stays if it is the first. -/
def recorded? (m : Moment κ ω) : Option Error :=
  match m.act with
  | .step (.worker i) =>
    match m.before.lanes[i]?.map Lane.worker with
    | some (.recording failure) => some failure
    | _ => none
  | .step .sequencer =>
    match m.before.sequencer.phase with
    | .recording failure => some failure
    | _ => none
  | _ => none

/-- What a call comes to that returns. -/
def outcome? (m : Moment κ ω) : Option (Except Error Nat) :=
  match m.act, m.after.owner.phase with
  | .step .owner, .ready result => some result
  | .request _, .ready result => some result
  | _, _ => none

/-- A call that has come to something has returned. -/
theorem phase_of_outcome? {m : Moment κ ω} {result : Except Error Nat}
    (outcome? : m.outcome? = some result) : m.after.owner.phase = .ready result := by
  unfold Moment.outcome? at outcome?
  split at outcome?
  · next phase =>
    cases outcome?
    exact phase
  · next phase =>
    cases outcome?
    exact phase
  · cases outcome?

/-- The request that is made. -/
def request? (m : Moment κ ω) : Option Request :=
  match m.act with
  | .request r => some r
  | _ => none

end Moment

/-! ## Runs -/

/-- The moments of a run so far. -/
abbrev History (κ ω : Type) := List (Moment κ ω)

/-- The entries submitted so far. -/
def History.entries (h : History κ ω) : List Entry := h.filterMap Moment.submission?

/-- The entries that the sequencer has taken so far. -/
def History.taken (h : History κ ω) : List Rendered := h.filterMap Moment.taken?

/-- The requests made so far. -/
def History.requests (h : History κ ω) : List Request := h.filterMap Moment.request?

namespace History

theorem entries_append (h₁ h₂ : History κ ω) :
    History.entries (h₁ ++ h₂) = h₁.entries ++ h₂.entries := List.filterMap_append

theorem entries_concat (h : History κ ω) (m : Moment κ ω) :
    History.entries (h ++ [m]) = h.entries ++ m.submission?.toList := by
  simp only [entries, List.filterMap_append]
  cases hm : m.submission? <;> simp [hm]

theorem taken_concat (h : History κ ω) (m : Moment κ ω) :
    History.taken (h ++ [m]) = h.taken ++ m.taken?.toList := by
  simp only [taken, List.filterMap_append]
  cases hm : m.taken? <;> simp [hm]

/-- Most moments submit nothing. -/
theorem entries_concat_of_none (h : History κ ω) {m : Moment κ ω} (none : m.submission? = none) :
    History.entries (h ++ [m]) = h.entries := by
  rw [entries_concat, none, Option.toList_none, List.append_nil]

/-- At most moments the sequencer takes nothing. -/
theorem taken_concat_of_none (h : History κ ω) {m : Moment κ ω} (none : m.taken? = none) :
    History.taken (h ++ [m]) = h.taken := by
  rw [taken_concat, none, Option.toList_none, List.append_nil]

/-- A step of the owner that does not count as a submission submits nothing. -/
theorem entries_of_submitted_eq (h : History κ ω) {s s' : Pipeline κ ω}
    (same : s'.owner.submitted = s.owner.submitted) :
    History.entries (h ++ [⟨s, .step .owner, s'⟩]) = h.entries := by
  refine entries_concat_of_none h ?_
  simp only [Moment.submission?, same, Nat.lt_irrefl, if_false]

/-- A step of the owner that counts as a submission submits the entry it was about to submit. -/
theorem entries_of_submitted_succ (h : History κ ω) {s s' : Pipeline κ ω} {entry : Entry}
    (submission? : s.submission? = some entry) (more : s'.owner.submitted = s.owner.submitted + 1) :
    History.entries (h ++ [⟨s, .step .owner, s'⟩]) = h.entries ++ [entry] := by
  rw [entries_concat, Moment.submission?]
  dsimp only
  rw [if_pos (by omega), submission?, Option.toList_some]

theorem requests_append (h₁ h₂ : History κ ω) :
    History.requests (h₁ ++ h₂) = h₁.requests ++ h₂.requests := List.filterMap_append

theorem requests_concat (h : History κ ω) (m : Moment κ ω) :
    History.requests (h ++ [m]) = h.requests ++ m.request?.toList := by
  simp only [requests, List.filterMap_append]
  cases hm : m.request? <;> simp [hm]

/-- A step is no request. -/
theorem requests_step (h : History κ ω) (s s' : Pipeline κ ω) (party : Pipeline.Party) :
    History.requests (h ++ [⟨s, .step party, s'⟩]) = h.requests :=
  (requests_concat h _).trans (List.append_nil _)

theorem requests_request (h : History κ ω) (s s' : Pipeline κ ω) (r : Request) :
    History.requests (h ++ [⟨s, .request r, s'⟩]) = h.requests ++ [r] := requests_concat h _

end History

namespace Pipeline

variable [BlockCompressor κ] [Sink ω]

/-- A history leads from one state to another. -/
inductive Run (start : Pipeline κ ω) : History κ ω → Pipeline κ ω → Prop
  | start : Run start [] start
  | step {h : History κ ω} {s s' : Pipeline κ ω} {party : Party} (run : Run start h s)
      (step : s.step? party = some s') : Run start (h ++ [⟨s, .step party, s'⟩]) s'
  | request {h : History κ ω} {s : Pipeline κ ω} (r : Request) (run : Run start h s)
      (returned : s.Returned) : Run start (h ++ [⟨s, .request r, s.request r⟩]) (s.request r)

namespace Run

variable {start s : Pipeline κ ω}

/-- A run that is cut at a moment: up to before it, up to behind it, and what comes behind. -/
theorem cut {h₁ h₂ : History κ ω} {m : Moment κ ω} (run : Run start (h₁ ++ m :: h₂) s) :
    Run start h₁ m.before ∧ Run start (h₁ ++ [m]) m.after ∧ Run m.after h₂ s := by
  induction h₂ using List.reverseRecOn generalizing s with
  | nil =>
    generalize hh : h₁ ++ [m] = h at run
    cases run with
    | start => simp at hh
    | step run step =>
      obtain ⟨rfl, rfl⟩ := List.append_singleton_inj.1 hh
      exact ⟨run, run.step step, .start⟩
    | request r run returned =>
      obtain ⟨rfl, rfl⟩ := List.append_singleton_inj.1 hh
      exact ⟨run, run.request r returned, .start⟩
  | append_singleton h₂ last ih =>
    -- the last moment belongs to what comes behind
    rw [← List.cons_append, ← List.append_assoc] at run
    generalize hh : h₁ ++ m :: h₂ ++ [last] = h at run
    cases run with
    | start => simp at hh
    | step run step =>
      obtain ⟨rfl, rfl⟩ := List.append_singleton_inj.1 hh
      obtain ⟨upTo, through, behind⟩ := ih run
      exact ⟨upTo, through, behind.step step⟩
    | request r run returned =>
      obtain ⟨rfl, rfl⟩ := List.append_singleton_inj.1 hh
      obtain ⟨upTo, through, behind⟩ := ih run
      exact ⟨upTo, through, behind.request r returned⟩

/-- A run up to a moment is a run, and so is the run up to behind it. -/
theorem split {h₁ h₂ : History κ ω} {m : Moment κ ω} (run : Run start (h₁ ++ m :: h₂) s) :
    Run start h₁ m.before ∧ Run start (h₁ ++ [m]) m.after := ⟨run.cut.1, run.cut.2.1⟩

/-- What comes behind a moment of a run is a run. -/
theorem suffix {h₁ h₂ : History κ ω} {m : Moment κ ω} (run : Run start (h₁ ++ m :: h₂) s) :
    Run m.after h₂ s := run.cut.2.2

/-- Every moment of a run is a step of a party, or a request made when no call was running. -/
theorem act_of_mem {h : History κ ω} {m : Moment κ ω} (run : Run start h s) (hm : m ∈ h) :
    (∃ party, m.act = .step party ∧ m.before.step? party = some m.after) ∨
      ∃ r, m.act = .request r ∧ m.before.Returned ∧ m.after = m.before.request r := by
  induction run with
  | start => cases hm
  | step run step ih =>
    rcases List.mem_append.1 hm with hm | hm
    · exact ih hm
    · obtain rfl := List.mem_singleton.1 hm
      exact .inl ⟨_, rfl, step⟩
  | request r run returned ih =>
    rcases List.mem_append.1 hm with hm | hm
    · exact ih hm
    · obtain rfl := List.mem_singleton.1 hm
      exact .inr ⟨r, rfl, returned, rfl⟩

end Run

end Pipeline

end ParallelGzip
