import ParallelGzip.Pipeline.Step

set_option autoImplicit false

/-! # Pipeline measure: every step comes closer to the end

Each phase of a party and each entry in a queue has a weight that is more than what any step makes
of it. Writing an entry to the sink takes any number of steps at the same weight; there the bytes
left to write decrease, and then the interruptions the sink may still cause. `measure_step?` is
the main statement: whoever takes a step, the measure decreases. So every run of a call is finite,
whatever the order of the steps. -/

namespace ParallelGzip

variable {κ ω : Type}

/-! ## Weights -/

/-- The weight of what a worker is about to do. -/
def Worker.weight : Worker → Nat
  | receiving => 5
  | received _ => 14
  | compressing _ _ _ => 13
  | sending _ => 12
  | recording _ => 4
  | cancelling => 3
  | closingOutput => 2
  | closingInput => 1
  | exited => 0

/-- The weight of a lane: its worker, and what waits in its queues. -/
def Lane.weight (lane : Lane κ) : Nat :=
  lane.worker.weight + 10 * lane.inbox.length + 6 * lane.outbox.length

/-- The weight of what the sequencer of `n` lanes is about to do. -/
def SequencerPhase.weight (n : Nat) : SequencerPhase → Nat
  | receiving => n + 2
  | received _ => n + 7
  | writing _ _ => n + 6
  | flushing => n + 5
  | advancing => n + 3
  | recording _ => n + 3
  | cancelling => n + 2
  | closing lane => 1 + (n - lane)
  | exited => 0

/-- The weight of what the owner of `n` lanes is about to do. -/
def OwnerPhase.weight (n : Nat) : OwnerPhase → Nat
  | ready _ => 0
  | checking (.submit data) => 2 * n + 18 + 11 * data.length
  | checking _ => 2 * n + 18
  | submitting rest _ => 2 * n + 17 + 11 * rest.length
  | ending _ => 2 * n + 17
  | waiting _ _ => 2 * n + 6
  | cancelling => 2 * n + 5
  | closing lane _ => n + 4 + (n - lane)
  | joining lane _ => 3 + (n - lane)
  | joiningSequencer _ => 2
  | reporting _ => 1

/-- The weight of some lanes together. -/
def lanesWeight : List (Lane κ) → Nat
  | [] => 0
  | lane :: lanes => lane.weight + lanesWeight lanes

theorem lanesWeight_set {lanes : List (Lane κ)} {i : Nat} {lane : Lane κ}
    (h : lanes[i]? = some lane) (lane' : Lane κ) :
    lanesWeight (lanes.set i lane') + lane.weight = lanesWeight lanes + lane'.weight := by
  induction lanes generalizing i with
  | nil => simp at h
  | cons first lanes ih =>
    cases i with
    | zero =>
      simp only [List.getElem?_cons_zero, Option.some.injEq] at h
      subst h
      simp only [List.set_cons_zero, lanesWeight]
      omega
    | succ i =>
      simp only [List.getElem?_cons_succ] at h
      have := ih h
      simp only [List.set_cons_succ, lanesWeight]
      omega

namespace Pipeline

/-- The bytes of an entry that are still to be written. -/
def unwritten (s : Pipeline κ ω) : Nat :=
  match s.sequencer.phase with
  | .writing rest _ => rest.length
  | _ => 0

/-- The weight of everything that may still happen. -/
def weight (s : Pipeline κ ω) : Nat :=
  lanesWeight s.lanes + s.sequencer.phase.weight s.lanes.length
    + s.owner.phase.weight s.lanes.length

/-- The measure of a pipeline. -/
def measure [Sink ω] (s : Pipeline κ ω) : Nat × Nat × Nat :=
  (s.weight, s.unwritten, Sink.patience s.sink)

/-- The order in which the measure decreases. -/
def Less : Nat × Nat × Nat → Nat × Nat × Nat → Prop :=
  Prod.Lex (· < ·) (Prod.Lex (· < ·) (· < ·))

theorem less_of_weight_lt [Sink ω] {s s' : Pipeline κ ω} (h : s'.weight < s.weight) :
    Less s'.measure s.measure := Prod.Lex.left _ _ h

/-! ## Workers -/

theorem weight_step?_lt [BlockCompressor κ] {lane lane' : Lane κ} {queueSize : Nat}
    {cancelled : Bool} {notice : Notice}
    (h : lane.step? queueSize cancelled = some (lane', notice)) : lane'.weight < lane.weight := by
  unfold Lane.step? at h
  split at h
  · next hw =>
    split at h
    · next hi =>
      cases h
      simp only [Lane.weight, hw, hi, Worker.weight, List.length_cons]
      omega
    · split at h
      · cases h
      · cases h
        simp only [Lane.weight, hw, Worker.weight]
        omega
  · next hw =>
    split at h
    · cases h
      simp only [Lane.weight, hw, Worker.weight]
      omega
    · split at h <;> cases h <;> simp only [Lane.weight, hw, Worker.weight] <;> omega
  · next hw =>
    split at h <;> cases h <;> simp only [Lane.weight, hw, Worker.weight] <;> omega
  · next hw =>
    split at h
    · cases h
      simp only [Lane.weight, hw, Worker.weight]
      omega
    · split at h
      · cases h
        simp only [Lane.weight, hw, Worker.weight, List.length_append, List.length_cons,
          List.length_nil]
        omega
      · cases h
  · next hw => cases h; simp only [Lane.weight, hw, Worker.weight]; omega
  · next hw => cases h; simp only [Lane.weight, hw, Worker.weight]; omega
  · next hw => cases h; simp only [Lane.weight, hw, Worker.weight]; omega
  · next hw => cases h; simp only [Lane.weight, hw, Worker.weight, List.length_nil]; omega
  · cases h

@[simp] theorem weight_post (s : Pipeline κ ω) (notice : Notice) :
    (s.post notice).weight = s.weight := by
  cases notice <;> rfl

theorem weight_setLane (s : Pipeline κ ω) {i : Nat} {lane : Lane κ}
    (h : s.lanes[i]? = some lane) (lane' : Lane κ) :
    { s with lanes := s.lanes.set i lane' }.weight + lane.weight = s.weight + lane'.weight := by
  have := lanesWeight_set h lane'
  simp only [weight, List.length_set]
  omega

theorem measure_workerStep? [BlockCompressor κ] [Sink ω] {s s' : Pipeline κ ω} {i : Nat}
    (h : s.workerStep? i = some s') : Less s'.measure s.measure := by
  unfold workerStep? at h
  split at h
  · cases h
  · next lane hlane =>
    split at h
    · cases h
    · next lane' notice hstep =>
      cases h
      have h1 := weight_step?_lt hstep
      have h2 := weight_setLane s hlane lane'
      exact less_of_weight_lt (by rw [weight_post]; omega)

/-! ## The sequencer -/

theorem measure_writeRest [Sink ω] {s : Pipeline κ ω} {rest : Bytes} {thenFlush : Bool}
    (hp : s.sequencer.phase = .writing rest thenFlush) (hne : rest ≠ []) :
    Less (s.writeRest rest thenFlush).measure s.measure := by
  rw [writeRest]
  dsimp only
  split
  · refine less_of_weight_lt ?_
    simp only [weight, sequence, hp, SequencerPhase.weight]
    omega
  · next n sink _ =>
    have : 0 < rest.length := List.length_pos_iff.2 hne
    have hw : ({ s with sink := sink }.sequence
        (.writing (rest.drop (n + 1)) thenFlush)).weight = s.weight := by
      simp only [weight, sequence, hp, SequencerPhase.weight]
    simp only [measure]
    rw [show (Pipeline.mk s.settings s.lanes s.sequencer sink s.sequenced s.cancelled s.failure
      s.owner) = { s with sink := sink } from rfl, hw]
    refine Prod.Lex.right _ (Prod.Lex.left _ _ ?_)
    simp only [unwritten, sequence, hp, List.length_drop]
    omega
  · next sink hwrite =>
    have hpat := Sink.patience_write s.sink rest (by rw [hwrite])
    rw [hwrite] at hpat
    exact Prod.Lex.right _ (Prod.Lex.right _ hpat)
  · refine less_of_weight_lt ?_
    simp only [weight, sequence, hp, SequencerPhase.weight]
    omega
  · refine less_of_weight_lt ?_
    simp only [weight, sinkPanicked, hp, SequencerPhase.weight]
    omega

theorem measure_sequencerStep? [Sink ω] {s s' : Pipeline κ ω} (h : s.sequencerStep? = some s') :
    Less s'.measure s.measure := by
  unfold sequencerStep? at h
  split at h
  · next hp =>
    simp only at h
    split at h
    · cases h
    · next lane hlane =>
      split at h
      · next rendered rest ho =>
        cases h
        have h2 := lanesWeight_set hlane { lane with outbox := rest }
        refine less_of_weight_lt ?_
        simp only [Lane.weight, ho, List.length_cons] at h2
        simp only [weight, sequence, hp, SequencerPhase.weight, List.length_set]
        omega
      · split at h
        · cases h
        · cases h
          refine less_of_weight_lt ?_
          simp only [weight, sequence, hp, SequencerPhase.weight]
          omega
  · next rendered hp =>
    split at h
    · cases h
      refine less_of_weight_lt ?_
      simp only [weight, sequence, hp, SequencerPhase.weight]
      omega
    · cases h
      refine less_of_weight_lt ?_
      cases rendered <;> simp only [weight, beginWriting, hp, SequencerPhase.weight] <;> omega
  · next rest thenFlush hp =>
    split at h
    · cases h
      refine less_of_weight_lt ?_
      cases thenFlush <;>
        simp [weight, sequence, hp, SequencerPhase.weight]
    · next hne =>
      cases h
      exact measure_writeRest hp hne
  · next hp =>
    split at h <;> cases h <;> refine less_of_weight_lt ?_ <;>
      simp only [weight, sequence, sinkPanicked, hp, SequencerPhase.weight] <;> omega
  · next hp =>
    cases h
    refine less_of_weight_lt ?_
    simp only [weight, hp, SequencerPhase.weight]
    omega
  · next failure hp =>
    cases h
    refine less_of_weight_lt ?_
    simp only [weight, sequence, post, hp, SequencerPhase.weight]
    omega
  · next hp =>
    cases h
    refine less_of_weight_lt ?_
    simp only [weight, sequence, post, hp, SequencerPhase.weight]
    omega
  · next i hp =>
    split at h
    · cases h
      refine less_of_weight_lt ?_
      simp only [weight, sequence, hp, SequencerPhase.weight]
      omega
    · next lane hlane =>
      cases h
      have hi : i < s.lanes.length := (List.getElem?_eq_some_iff.1 hlane).1
      have h2 := lanesWeight_set hlane { lane with outbox := [], sequencerAttached := false }
      refine less_of_weight_lt ?_
      simp only [Lane.weight, List.length_nil] at h2
      simp only [weight, sequence, hp, SequencerPhase.weight, List.length_set]
      omega
  · cases h

/-! ## The owner -/

theorem weight_send {s s' : Pipeline κ ω} {entry : Entry} (h : s.send entry = .sent s') :
    lanesWeight s'.lanes = lanesWeight s.lanes + 10 ∧ s'.lanes.length = s.lanes.length ∧
      s'.sequencer = s.sequencer ∧ s'.owner.phase = s.owner.phase := by
  unfold send at h
  simp only at h
  split at h
  · cases h
  · next lane hlane =>
    split at h
    · cases h
    · split at h
      · cases h
        have h2 := lanesWeight_set hlane { lane with inbox := lane.inbox ++ [entry] }
        simp only [Lane.weight, List.length_append, List.length_cons, List.length_nil] at h2
        exact ⟨by simp only; omega, by simp, rfl, rfl⟩
      · cases h

theorem measure_ownerStep? [Sink ω] {s s' : Pipeline κ ω} (h : s.ownerStep? = some s') :
    Less s'.measure s.measure := by
  refine less_of_weight_lt ?_
  unfold ownerStep? at h
  split at h
  · cases h
  · next call hp =>
    split at h
    · cases h
      cases call <;> simp only [weight, own, hp, OwnerPhase.weight] <;> omega
    · split at h
      · cases h
        split <;> simp only [weight, own, hp, OwnerPhase.weight] <;> omega
      · cases h
        simp only [weight, own, hp, OwnerPhase.weight]
        omega
      · cases h
        simp only [weight, own, hp, OwnerPhase.weight]
        omega
  · next rest total hp =>
    simp only at h
    split at h
    · next s₁ hsend =>
      cases h
      obtain ⟨h1, h2, h3, h4⟩ := weight_send hsend
      have hpos := s.settings.blockSize_pos
      simp only [weight, accept, hp, h1, h2, h3]
      split
      · simp only [OwnerPhase.weight]
        omega
      · next hne =>
        have : 0 < (rest.drop s.settings.blockSize).length := List.length_pos_iff.2 hne
        simp only [List.length_drop] at this
        simp only [OwnerPhase.weight, List.length_drop]
        omega
    · cases h
    · cases h
      simp only [weight, own, hp, OwnerPhase.weight]
      omega
  · next next hp =>
    split at h
    · next s₁ hsend =>
      cases h
      obtain ⟨h1, h2, h3, h4⟩ := weight_send hsend
      simp only [weight, hp, h1, h2, h3, OwnerPhase.weight]
      omega
    · cases h
    · cases h
      simp only [weight, own, hp, OwnerPhase.weight]
      omega
  · next target last hp =>
    split at h
    · split at h
      · cases h
        simp only [weight, hp, OwnerPhase.weight]
        omega
      · cases h
        simp only [weight, own, hp, OwnerPhase.weight]
        omega
    · split at h
      · cases h
        simp only [weight, own, hp, OwnerPhase.weight]
        omega
      · cases h
  · next hp =>
    cases h
    simp only [weight, hp, OwnerPhase.weight]
    omega
  · next i failed hp =>
    split at h
    · next hnone =>
      cases h
      simp only [weight, own, hp, OwnerPhase.weight]
      omega
    · next lane hlane =>
      cases h
      have hi : i < s.lanes.length := (List.getElem?_eq_some_iff.1 hlane).1
      have h2 := lanesWeight_set hlane { lane with ownerAttached := false }
      simp only [Lane.weight] at h2
      simp only [weight, own, hp, OwnerPhase.weight, List.length_set]
      omega
  · next i failed hp =>
    split at h
    · cases h
      simp only [weight, own, hp, OwnerPhase.weight]
      omega
    · next lane hlane =>
      have hi : i < s.lanes.length := (List.getElem?_eq_some_iff.1 hlane).1
      split at h
      · cases h
      · cases h
        simp only [weight, own, hp, OwnerPhase.weight]
        omega
  · next failed hp =>
    split at h
    · cases h
      simp only [weight, own, hp, OwnerPhase.weight]
      omega
    · cases h
  · next failed hp =>
    cases h
    simp only [weight, hp, OwnerPhase.weight]
    omega

/-- Whoever takes a step, the measure decreases. -/
theorem measure_step? [BlockCompressor κ] [Sink ω] {s s' : Pipeline κ ω} {party : Party}
    (h : s.step? party = some s') : Less s'.measure s.measure := by
  cases party with
  | owner => exact measure_ownerStep? h
  | worker i => exact measure_workerStep? h
  | sequencer => exact measure_sequencerStep? h

end Pipeline

end ParallelGzip
