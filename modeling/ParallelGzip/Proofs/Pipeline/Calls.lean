import ParallelGzip.Proofs.Pipeline.Linked

set_option autoImplicit false

/-! # Calls: how a request is carried out

Between a request and the next one the owner carries out one call. `Carries` says how far it has
come: what it is about to do belongs to the call, and once it waits it has submitted the end of a
member since the request. A call that closes the writer has closed it when it returns. -/

namespace ParallelGzip

variable {κ ω : Type}

/-- The call that ends a member: the last one, or one before another. -/
def Call.ending (last : Bool) : Call := if last then .close else .flush

namespace Pipeline

/-- How far the owner has come with a request, if `h` is what happened since. -/
def Carries (r : Request) (h : History κ ω) (s : Pipeline κ ω) : Prop :=
  match s.owner.phase with
  | .ready _ => r.call = .close → s.owner.closed = true
  | .checking call => call = r.call
  | .submitting _ _ => ∃ data, r.call = .submit data
  | .ending next => r.call = .ending next.isNone
  | .waiting _ last =>
    r.call = .ending last ∧ ∃ next, h.entries.getLast? = some (.memberEnd next)
  | .cancelling => True
  | .closing _ failed | .joining _ failed | .joiningSequencer failed | .reporting failed =>
    s.owner.closed = true ∧
      (failed = false → ∃ next, h.entries.getLast? = some (.memberEnd next))

namespace Carries

variable {r : Request} {h : History κ ω} {s s' : Pipeline κ ω}

/-- What leaves the owner alone and submits nothing leaves the call alone. -/
theorem of_eq {h' : History κ ω} (carries : s.Carries r h) (owner : s'.owner = s.owner)
    (entries : h'.entries = h.entries) : s'.Carries r h' := by
  unfold Carries at carries ⊢
  rw [owner, entries]
  exact carries

theorem move (carries : s.Carries r h) (move : s.OwnerMove s') :
    s'.Carries r (h ++ [⟨s, .step .owner, s'⟩]) := by
  have same : s'.owner.submitted = s.owner.submitted → _ := History.entries_of_submitted_eq h
  rw [Carries] at carries
  cases move with
  -- nothing is promised of an owner that has found a failure
  | giveUp givesUp => trivial
  | submitNothing phase =>
    rw [phase] at carries
    rw [Carries, ← carries]
    exact nofun
  | beginSubmit phase =>
    rw [phase] at carries
    exact ⟨_, carries.symm⟩
  | beginFlush phase | beginClose phase =>
    rw [phase] at carries
    exact carries.symm
  | finishFlush phase =>
    rw [phase] at carries
    rw [Carries, carries.1]
    exact nofun
  | finishClose phase =>
    rw [phase] at carries
    refine ⟨rfl, ?_⟩
    intro _
    rw [same rfl]
    exact carries.2
  | cancel phase => exact ⟨rfl, nofun⟩
  | closeLane phase | closed phase | join phase | joined phase | joinSequencer phase =>
    rw [phase] at carries
    refine ⟨carries.1, ?_⟩
    rw [same rfl]
    exact carries.2
  | report phase =>
    rw [phase] at carries
    intro _
    exact carries.1
  | @send entry lane submission? turn worker room =>
    have more : s.ownerAfterSending.submitted = s.owner.submitted + 1 :=
      ownerAfterSending_submitted submission?
    rw [Carries, History.entries_of_submitted_succ h submission? more]
    -- a last block, a block with more to come, or the end of a member
    rcases phase_ownerAfterSending submission? with
      ⟨rest, total, phase, after | ⟨later, after⟩⟩ | ⟨next, phase, after⟩
    · rw [phase] at carries
      obtain ⟨data, hdata⟩ := carries
      simp only [after, hdata]
      exact nofun
    · rw [phase] at carries
      simp only [after]
      exact carries
    · rw [phase] at carries
      simp only [Pipeline.submission?, phase, Option.some.injEq] at submission?
      simp only [after]
      exact ⟨carries, next, submission? ▸ List.getLast?_concat⟩

end Carries

/-- Since a request, the owner has carried it out as far as it has come. -/
theorem Run.carries [BlockCompressor κ] [Sink ω] {start s : Pipeline κ ω} {h : History κ ω}
    {r : Request} (run : Run start h s) (alone : h.requests = []) (begun : start.Carries r []) :
    s.Carries r h := by
  induction run with
  | start => exact begun
  | @step h s s' party run step ih =>
    rw [History.requests_append, List.append_eq_nil_iff] at alone
    have before := ih alone.1
    cases party with
    | owner => exact before.move (move_of_ownerStep? step)
    | worker i =>
      have owner := (frame_of_workerStep? step).owner
      exact before.of_eq owner (History.entries_concat_of_none h rfl)
    | sequencer =>
      have owner := (move_of_sequencerStep? step).frame.2
      exact before.of_eq owner (History.entries_concat_of_none h rfl)
  | request r run returned ih =>
    rw [History.requests_append, List.append_eq_nil_iff] at alone
    cases alone.2

/-- A request begins to be carried out, or has been if the writer is closed. -/
theorem carries_request (s : Pipeline κ ω) (r : Request) : (s.request r).Carries r [] := by
  cases closed : s.owner.closed with
  | false =>
    rw [request_of_open closed]
    rfl
  | true =>
    rw [request_of_closed closed]
    intro _
    exact closed

/-- What the owner has done since a request belongs to it. -/
theorem Run.carries_since [BlockCompressor κ] [Sink ω] {start s : Pipeline κ ω}
    {h₁ h₂ : History κ ω} {call : Moment κ ω} {r : Request}
    (run : Run start (h₁ ++ call :: h₂) s) (request? : call.request? = some r)
    (alone : h₂.requests = []) : s.Carries r h₂ := by
  have hcall : call ∈ h₁ ++ call :: h₂ := List.mem_append_right _ List.mem_cons_self
  refine run.suffix.carries alone ?_
  rcases run.act_of_mem hcall with ⟨party, act, -⟩ | ⟨r', act, -, after⟩
  · rw [Moment.request?, act] at request?
    cases request?
  · rw [Moment.request?, act] at request?
    cases request?
    rw [after]
    exact carries_request call.before r

end Pipeline

end ParallelGzip
