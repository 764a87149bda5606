import ParallelGzip.Pipeline.Measure

set_option autoImplicit false

/-! # Running a pipeline: steps until nobody can take one

`settle` is one run among the many that a pipeline allows: the sequencer and the workers go first,
and the owner takes a step when they all have to wait. It ends because every step decreases the
measure. -/

namespace ParallelGzip

namespace Pipeline

variable {κ ω : Type} [BlockCompressor κ] [Sink ω]

/-- The parties, in the order in which they are given the chance to take a step. -/
def parties (s : Pipeline κ ω) : List Party :=
  .sequencer :: (List.range s.lanes.length).map .worker ++ [.owner]

/-- The step of the first party that can take one. -/
def next? (s : Pipeline κ ω) : Option (Pipeline κ ω) := s.parties.findSome? s.step?

theorem step?_of_next? {s s' : Pipeline κ ω} (h : s.next? = some s') :
    ∃ party, s.step? party = some s' := by
  obtain ⟨party, -, hp⟩ := List.exists_of_findSome?_eq_some h
  exact ⟨party, hp⟩

/-- Run until nobody can take a step. What is being written comes first of all: `next?` would choose
    the same step, but would keep the state before it. -/
def settle (s : Pipeline κ ω) : Pipeline κ ω :=
  match _hp : s.sequencer.phase with
  | .writing (byte :: rest) thenFlush => (s.writeRest (byte :: rest) thenFlush).settle
  | _ =>
    match _h : s.next? with
    | none => s
    | some s' => s'.settle
termination_by s.measure
decreasing_by
  · exact measure_writeRest _hp (List.cons_ne_nil _ _)
  · obtain ⟨party, hp⟩ := step?_of_next? _h
    exact measure_step? hp

/-- The result of the last call. -/
def result (s : Pipeline κ ω) : Except Error Nat :=
  match s.owner.phase with
  | .ready result => result
  | _ => .error (.internal "a call has not returned")

/-- Make a call and run until it has returned. -/
def call (s : Pipeline κ ω) (c : Call) : Except Error Nat × Pipeline κ ω :=
  let s := (s.begin c).settle
  (s.result, s)

end Pipeline

end ParallelGzip
