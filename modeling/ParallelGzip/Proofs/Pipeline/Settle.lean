import ParallelGzip.Proofs.Pipeline.Liveness
import ParallelGzip.Proofs.Pipeline.Replay

set_option autoImplicit false

/-! # Settling: the run that a call makes by itself

`Pipeline.settle` lets the parties take steps until nobody can. It is one run among those that a
pipeline allows, so what is shown of all runs holds of the calls of a writer. -/

namespace ParallelGzip

namespace Pipeline

variable {κ ω : Type} [BlockCompressor κ] [Sink ω] {start s s' : Pipeline κ ω} {h : History κ ω}

theorem Run.append {h' : History κ ω} (first : Run start h s) (second : Run s h' s') :
    Run start (h ++ h') s' := by
  induction second with
  | start => exact (List.append_nil h).symm ▸ first
  | step _ step ih => exact List.append_assoc h _ _ ▸ ih.step step
  | request r _ returned ih => exact List.append_assoc h _ _ ▸ ih.request r returned

/-- If no party can be found that can take a step, nobody can. -/
theorem stuck_of_next? (none : s.next? = none) : s.Stuck := by
  rw [next?, List.findSome?_eq_none_iff] at none
  intro party
  cases party with
  | sequencer => exact none _ (by simp [parties])
  | owner => exact none _ (by simp [parties])
  | worker i =>
    by_cases hi : i < s.lanes.length
    · exact none _ (by simp [parties, hi])
    · simp only [step?, workerStep?, List.getElem?_eq_none (Nat.le_of_not_lt hi)]

theorem step?_of_writing {byte : UInt8} {rest : Bytes} {thenFlush : Bool}
    (phase : s.sequencer.phase = .writing (byte :: rest) thenFlush) :
    s.step? .sequencer = some (s.writeRest (byte :: rest) thenFlush) := by
  simp only [step?, sequencerStep?, phase, List.cons_ne_nil, if_false]

/-- Settling is a run at whose end nobody can take a step. -/
theorem exists_run_settle (s : Pipeline κ ω) :
    ∃ h, Run s h s.settle ∧ h.requests = [] ∧ s.settle.Stuck := by
  fun_induction settle s with
  | case1 s byte rest thenFlush phase ih =>
    obtain ⟨h, run, alone, stuck⟩ := ih
    have first := Run.start.step (step?_of_writing phase)
    exact ⟨_, first.append run, alone, stuck⟩
  | case2 s none _ => exact ⟨[], .start, rfl, stuck_of_next? none⟩
  | case3 s s' next _ ih =>
    obtain ⟨h, run, alone, stuck⟩ := ih
    obtain ⟨party, step⟩ := step?_of_next? next
    exact ⟨_, (Run.start.step step).append run, alone, stuck⟩

/-- A call of an open writer is a run with one request, at whose end nobody can take a step. -/
theorem exists_run_call (returned : s.Returned) (opened : s.owner.closed = false) (r : Request) :
    ∃ h, Run s h (s.call r.call).2 ∧ h.requests = [r] ∧ (s.call r.call).2.Stuck := by
  have begins : s.request r = s.begin r.call := by
    rw [request, opened]
    rfl
  obtain ⟨h, run, alone, stuck⟩ := exists_run_settle (s.request r)
  rw [call, ← begins]
  refine ⟨_, (Run.start.request r returned).append run, ?_, stuck⟩
  rw [History.requests_append, alone]
  rfl

/-- Behind the request it is a run that goes up to the answer. -/
theorem Run.exists_run_answer {settings : Settings} {compressors : List κ} {sink : ω}
    (nonempty : compressors ≠ []) (run : Run (Pipeline.new settings compressors sink) h s)
    (returned : s.Returned) (opened : s.owner.closed = false) (r : Request) :
    ∃ h', Run (s.request r) h' (s.call r.call).2 ∧ h'.requests = [] ∧
      (s.call r.call).2.owner.phase = .ready (s.call r.call).1 := by
  have begins : s.request r = s.begin r.call := by
    rw [Pipeline.request, opened]
    rfl
  obtain ⟨h', run', alone, stuck⟩ := exists_run_settle (s.request r)
  have whole := (run.request r returned).append run'
  obtain ⟨result, ready⟩ := stuck.returned nonempty whole.ordered whole.linked
  rw [call, ← begins]
  refine ⟨h', run', alone, ?_⟩
  rw [Pipeline.result, ready]

end Pipeline

end ParallelGzip
