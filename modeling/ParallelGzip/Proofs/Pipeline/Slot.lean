import ParallelGzip.Proofs.Pipeline.Alarm

set_option autoImplicit false

/-! # Slot: every mishap gets into the slot

Whatever goes wrong in a worker or under the sequencer is carried by that party until it leaves it
in the slot, and the slot keeps what was left first. `Reported` says so about the history of a
run. -/

namespace ParallelGzip

variable {κ ω : Type}

/-! ## What has gone wrong -/

namespace History

/-- What has gone wrong so far. -/
def mishaps [BlockCompressor κ] [Sink ω] (h : History κ ω) : List Mishap :=
  h.filterMap Moment.mishap?

/-- The failures left in the slot so far. -/
def recorded (h : History κ ω) : List Error := h.filterMap Moment.recorded?

theorem mishaps_append [BlockCompressor κ] [Sink ω] (h₁ h₂ : History κ ω) :
    History.mishaps (h₁ ++ h₂) = h₁.mishaps ++ h₂.mishaps := List.filterMap_append

theorem mishaps_concat [BlockCompressor κ] [Sink ω] (h : History κ ω) (m : Moment κ ω) :
    History.mishaps (h ++ [m]) = h.mishaps ++ m.mishap?.toList := by
  rw [mishaps_append]
  cases hm : m.mishap? <;> simp [mishaps, hm]

theorem recorded_concat (h : History κ ω) (m : Moment κ ω) :
    History.recorded (h ++ [m]) = h.recorded ++ m.recorded?.toList := by
  simp only [recorded, List.filterMap_append]
  cases hm : m.recorded? <;> simp [hm]

end History

/-! ## From a mishap to the slot -/

/-- What a step of a worker has to do with failures: it meets one, it leaves one in the slot, or
    neither. -/
inductive Lane.Reports [BlockCompressor κ] (lane lane' : Lane κ) (notice : Notice) : Prop
  | meets (mishap : Mishap) (mishap? : lane.mishap? = some mishap)
      (before : ∀ failure, lane.worker ≠ .recording failure)
      (after : lane'.worker = .recording mishap.failure) (notice : notice = .nothing)
  | leaves (failure : Error) (mishap? : lane.mishap? = none)
      (before : lane.worker = .recording failure)
      (after : ∀ failure, lane'.worker ≠ .recording failure) (notice : notice = .failure failure)
  | neither (mishap? : lane.mishap? = none) (before : ∀ failure, lane.worker ≠ .recording failure)
      (after : ∀ failure, lane'.worker ≠ .recording failure)
      (notice : ∀ failure, notice ≠ .failure failure)

theorem Lane.mishap?_of_not_compressing [BlockCompressor κ] {lane : Lane κ}
    (h : ∀ number data dictionary, lane.worker ≠ .compressing number data dictionary) :
    lane.mishap? = none := by
  unfold mishap?
  split
  · next worker => exact absurd worker (h _ _ _)
  · rfl

theorem Lane.Move.reports [BlockCompressor κ] {lane lane' : Lane κ} {queueSize : Nat}
    {cancelled : Bool} {notice : Notice} (move : lane.Move queueSize cancelled lane' notice) :
    lane.Reports lane' notice := by
  cases move with
  | @fail mishap after mishap? =>
    refine .meets mishap mishap? ?_ rfl rfl
    intro failure recording
    simp [Lane.mishap?, recording] at mishap?
  | record worker =>
    refine .leaves _ (mishap?_of_not_compressing ?_) worker (by simp) rfl
    simp [worker]
  | compress worker result =>
    refine .neither ?_ ?_ (by simp) (by simp)
    · simp only [Lane.mishap?, worker, result]
    · simp [worker]
  | quit quits =>
    cases quits with
    | drained worker | told _ worker | refused _ worker =>
      refine .neither (mishap?_of_not_compressing ?_) ?_ (by simp) (by simp) <;>
        simp [worker]
  | receive worker | take worker | pass worker | send worker | cancel worker
  | closeOutput worker | closeInput worker =>
    refine .neither (mishap?_of_not_compressing ?_) ?_ (by simp) (by simp) <;>
      simp [worker]

namespace Pipeline

/-- What a step of the sequencer has to do with failures: it meets one, it leaves one in the slot,
    or neither. -/
inductive SequencerReports [Sink ω] (s s' : Pipeline κ ω) : Prop
  | meets (mishap : Mishap) (mishap? : s.sinkMishap? = some mishap)
      (before : ∀ failure, s.sequencer.phase ≠ .recording failure)
      (after : s'.sequencer.phase = .recording mishap.failure) (slot : s'.failure = s.failure)
  | leaves (failure : Error) (mishap? : s.sinkMishap? = none)
      (before : s.sequencer.phase = .recording failure)
      (after : ∀ failure, s'.sequencer.phase ≠ .recording failure)
      (slot : s'.failure = s.failure.or (some failure))
  | neither (mishap? : s.sinkMishap? = none)
      (before : ∀ failure, s.sequencer.phase ≠ .recording failure)
      (after : ∀ failure, s'.sequencer.phase ≠ .recording failure) (slot : s'.failure = s.failure)

theorem SequencerMove.reports [Sink ω] {s s' : Pipeline κ ω} (move : s.SequencerMove s') :
    s.SequencerReports s' := by
  cases move with
  | @fail mishap mishap? =>
    refine .meets mishap mishap? ?_ rfl rfl
    intro failure recording
    simp [sinkMishap?, recording] at mishap?
  | record phase =>
    refine .leaves _ ?_ phase (by simp) rfl
    simp only [sinkMishap?, phase]
  | leave leaves =>
    cases leaves with
    | abandoned _ phase | told _ phase =>
      refine .neither ?_ ?_ (by simp) rfl
      · simp only [sinkMishap?, phase]
      · simp [phase]
  | @start rendered phase =>
    refine .neither ?_ ?_ ?_ ?_
    · simp only [sinkMishap?, phase]
    · simp [phase]
    · cases rendered <;> simp [beginWriting]
    · cases rendered <;> rfl
  | @finish thenFlush phase =>
    refine .neither ?_ ?_ ?_ rfl
    · simp only [sinkMishap?, phase, if_true]
    · simp [phase]
    · cases thenFlush <;> simp
  | interrupted phase nonempty result =>
    refine .neither ?_ ?_ ?_ rfl
    · simp only [sinkMishap?, phase, nonempty, result, if_false]
    · simp [phase]
    · simp [phase]
  | write phase nonempty result =>
    refine .neither ?_ ?_ (by simp) rfl
    · simp only [sinkMishap?, phase, nonempty, result, if_false]
    · simp [phase]
  | flush phase result =>
    refine .neither ?_ ?_ (by simp) rfl
    · simp only [sinkMishap?, phase, result]
    · simp [phase]
  | receive phase | advance phase | cancel phase | closeLane phase | exit phase =>
    refine .neither ?_ ?_ (by simp) rfl
    · simp only [sinkMishap?, phase]
    · simp [phase]

/-- Some party is about to leave this failure in the slot. -/
def Carried (s : Pipeline κ ω) (failure : Error) : Prop :=
  .recording failure ∈ s.lanes.map Lane.worker ∨ s.sequencer.phase = .recording failure

/-- How the slot goes with what has happened: a failure that is carried or has been left there comes
    from a mishap, the slot keeps the first, and no mishap goes unreported. -/
structure Reported [BlockCompressor κ] [Sink ω] (h : History κ ω) (s : Pipeline κ ω) : Prop where
  carried : ∀ failure, s.Carried failure → ∃ mishap ∈ h.mishaps, mishap.failure = failure
  recorded : ∀ failure ∈ h.recorded, ∃ mishap ∈ h.mishaps, mishap.failure = failure
  slot : ¬s.Settled → s.failure = h.recorded.head?
  pending : h.mishaps ≠ [] → h.recorded ≠ [] ∨ ∃ failure, s.Carried failure

/-- A lane that is put back with the same worker leaves the workers as they are. -/
theorem workers_set {lanes : List (Lane κ)} {i : Nat} {lane lane' : Lane κ}
    (hlane : lanes[i]? = some lane) (worker : lane'.worker = lane.worker) :
    (lanes.set i lane').map Lane.worker = lanes.map Lane.worker := by
  have hworker : (lanes.map Lane.worker)[i]? = some lane.worker := by
    rw [List.getElem?_map, hlane, Option.map_some]
  obtain ⟨hi, hget⟩ := List.getElem?_eq_some_iff.1 hworker
  rw [List.map_set, worker, ← hget, List.set_getElem_self]

theorem workers_of_sequencerMove [Sink ω] {s s' : Pipeline κ ω} (move : s.SequencerMove s') :
    s'.lanes.map Lane.worker = s.lanes.map Lane.worker := by
  cases move.touches with
  | nothing lanes => rw [lanes]
  | took lane rendered rest phase turn outbox lanes =>
    rw [lanes]
    exact workers_set turn rfl
  | detached i lane lane? lanes =>
    rw [lanes]
    exact workers_set lane? rfl

theorem workers_of_ownerMove {s s' : Pipeline κ ω} (move : s.OwnerMove s') :
    s'.lanes.map Lane.worker = s.lanes.map Lane.worker := by
  cases move.touches with
  | nothing lanes => rw [lanes]
  | sent entry lane submission? turn worker lanes =>
    rw [lanes]
    exact workers_set turn rfl
  | detached i lane lane? lanes =>
    rw [lanes]
    exact workers_set lane? rfl

namespace Reported

variable [BlockCompressor κ] [Sink ω] {h : History κ ω} {s s' : Pipeline κ ω} {act : Act}

theorem new (settings : Settings) (compressors : List κ) (sink : ω) :
    Reported [] (Pipeline.new settings compressors sink) where
  carried := by
    rintro failure (recording | recording)
    · simp [Pipeline.new, Lane.new] at recording
    · cases recording
  recorded := nofun
  slot := fun _ => rfl
  pending := fun some => absurd rfl some

/-- A moment at which a mishap is met: from then on its failure is carried. -/
theorem meets (reported : s.Reported h) {mishap : Mishap}
    (mishap? : (Moment.mk s act s').mishap? = some mishap)
    (recorded? : (Moment.mk s act s').recorded? = none)
    (carried : ∀ failure, s'.Carried failure → s.Carried failure ∨ failure = mishap.failure)
    (after : s'.Carried mishap.failure) (owner : s'.owner = s.owner)
    (failure : s'.failure = s.failure) : s'.Reported (h ++ [⟨s, act, s'⟩]) := by
  have hmishaps : History.mishaps (h ++ [⟨s, act, s'⟩]) = h.mishaps ++ [mishap] := by
    rw [History.mishaps_concat, mishap?, Option.toList_some]
  have hrecorded : History.recorded (h ++ [⟨s, act, s'⟩]) = h.recorded := by
    rw [History.recorded_concat, recorded?, Option.toList_none, List.append_nil]
  refine ⟨?carried, ?recorded, ?slot, ?pending⟩
  case carried =>
    intro left hleft
    rw [hmishaps]
    rcases carried left hleft with before | rfl
    · obtain ⟨found, hfound, rfl⟩ := reported.carried left before
      exact ⟨found, List.mem_append_left _ hfound, rfl⟩
    · exact ⟨mishap, List.mem_append_right _ List.mem_cons_self, rfl⟩
  case recorded =>
    intro left hleft
    rw [hrecorded] at hleft
    rw [hmishaps]
    obtain ⟨found, hfound, rfl⟩ := reported.recorded left hleft
    exact ⟨found, List.mem_append_left _ hfound, rfl⟩
  case slot =>
    rw [hrecorded, failure, Settled, Returned, owner]
    exact reported.slot
  case pending =>
    intro _
    exact .inr ⟨_, after⟩

/-- A moment at which a carried failure is left in the slot. -/
theorem leaves (reported : s.Reported h) {left : Error}
    (mishap? : (Moment.mk s act s').mishap? = none)
    (recorded? : (Moment.mk s act s').recorded? = some left)
    (carried : ∀ failure, s'.Carried failure → s.Carried failure) (before : s.Carried left)
    (owner : s'.owner = s.owner) (failure : s'.failure = s.failure.or (some left)) :
    s'.Reported (h ++ [⟨s, act, s'⟩]) := by
  have hmishaps : History.mishaps (h ++ [⟨s, act, s'⟩]) = h.mishaps := by
    rw [History.mishaps_concat, mishap?, Option.toList_none, List.append_nil]
  have hrecorded : History.recorded (h ++ [⟨s, act, s'⟩]) = h.recorded ++ [left] := by
    rw [History.recorded_concat, recorded?, Option.toList_some]
  refine ⟨?carried, ?recorded, ?slot, ?pending⟩
  case carried =>
    intro other hother
    rw [hmishaps]
    exact reported.carried other (carried other hother)
  case recorded =>
    intro other hother
    rw [hrecorded] at hother
    rw [hmishaps]
    rcases List.mem_append.1 hother with earlier | last
    · exact reported.recorded other earlier
    · obtain rfl := List.mem_singleton.1 last
      exact reported.carried other before
  case slot =>
    rw [hrecorded, failure, Settled, Returned, owner]
    intro unsettled
    -- the slot keeps what was left there first
    rw [reported.slot unsettled, List.head?_append]
    rfl
  case pending =>
    rw [hrecorded]
    intro _
    exact .inl (List.append_ne_nil_of_right_ne_nil _ (List.cons_ne_nil _ _))

/-- A moment at which no failure is met and none is left in the slot. -/
theorem neither (reported : s.Reported h) (mishap? : (Moment.mk s act s').mishap? = none)
    (recorded? : (Moment.mk s act s').recorded? = none)
    (carried : ∀ failure, s'.Carried failure ↔ s.Carried failure)
    (slot : ¬s'.Settled → ¬s.Settled ∧ s'.failure = s.failure) :
    s'.Reported (h ++ [⟨s, act, s'⟩]) := by
  have hmishaps : History.mishaps (h ++ [⟨s, act, s'⟩]) = h.mishaps := by
    rw [History.mishaps_concat, mishap?, Option.toList_none, List.append_nil]
  have hrecorded : History.recorded (h ++ [⟨s, act, s'⟩]) = h.recorded := by
    rw [History.recorded_concat, recorded?, Option.toList_none, List.append_nil]
  refine ⟨?carried, ?recorded, ?slot, ?pending⟩
  case carried =>
    intro failure hfailure
    rw [hmishaps]
    exact reported.carried failure ((carried failure).1 hfailure)
  case recorded =>
    rw [hmishaps, hrecorded]
    exact reported.recorded
  case slot =>
    intro unsettled
    obtain ⟨before, same⟩ := slot unsettled
    rw [hrecorded, same]
    exact reported.slot before
  case pending =>
    rw [hmishaps, hrecorded]
    intro some
    rcases reported.pending some with left | ⟨failure, before⟩
    · exact .inl left
    · exact .inr ⟨failure, (carried failure).2 before⟩

theorem workerStep? (reported : s.Reported h) {i : Nat} (step : s.workerStep? i = some s') :
    s'.Reported (h ++ [⟨s, .step (.worker i), s'⟩]) := by
  obtain ⟨lane, lane', notice, hlane, move, after⟩ := move_of_workerStep? step
  obtain ⟨-, sequencer, -, -, owner⟩ := frame_of_workerStep? step
  have workers : s'.lanes.map Lane.worker = (s.lanes.map Lane.worker).set i lane'.worker := by
    rw [after, post_lanes, List.map_set]
  have hi : (s.lanes.map Lane.worker)[i]? = some lane.worker := by
    rw [List.getElem?_map, hlane, Option.map_some]
  have hmishap : (Moment.mk s (.step (.worker i)) s').mishap? = lane.mishap? := by
    simp only [Moment.mishap?, hlane, Option.bind_some]
  have settled : s'.Settled ↔ s.Settled := by rw [Settled, Settled, Returned, Returned, owner]
  have carried : ∀ failure, s'.Carried failure →
      s.Carried failure ∨ lane'.worker = .recording failure := by
    intro failure carried
    rw [Carried, workers, sequencer] at carried
    rcases carried with recording | recording
    · rcases List.mem_or_eq_of_mem_set recording with before | now
      · exact .inl (.inl before)
      · exact .inr now.symm
    · exact .inl (.inr recording)
  cases move.reports with
  | meets mishap mishap? before now notice =>
    refine reported.meets (hmishap.trans mishap?) ?_ ?_ ?_ owner ?_
    · simp only [Moment.recorded?, hlane, Option.map_some]
      split
      · next recording =>
        rw [Option.some.injEq] at recording
        exact absurd recording (before _)
      · rfl
    · intro failure hfailure
      refine (carried failure hfailure).imp_right ?_
      intro recording
      rw [now, Worker.recording.injEq] at recording
      exact recording.symm
    · refine .inl ?_
      rw [workers, now]
      exact List.mem_set (List.getElem?_eq_some_iff.1 hi).1 _
    · rw [after, notice]
      rfl
  | leaves failure mishap? before now notice =>
    have recorded? : (Moment.mk s (.step (.worker i)) s').recorded? = some failure := by
      simp only [Moment.recorded?, hlane, Option.map_some, before]
    refine reported.leaves (hmishap.trans mishap?) recorded? ?_ ?_ owner ?_
    · intro other hother
      exact (carried other hother).resolve_right (now other)
    · exact .inl (before ▸ List.mem_of_getElem? hi)
    · rw [after, notice]
      rfl
  | neither mishap? before now silent =>
    refine reported.neither (hmishap.trans mishap?) ?_ ?_ ?_
    · simp only [Moment.recorded?, hlane, Option.map_some]
      split
      · next recording =>
        rw [Option.some.injEq] at recording
        exact absurd recording (before _)
      · rfl
    · intro failure
      constructor
      · intro hfailure
        exact (carried failure hfailure).resolve_right (now failure)
      · rintro (recording | recording)
        · obtain ⟨j, hj⟩ := List.getElem?_of_mem recording
          refine .inl (List.mem_of_getElem? (i := j) ?_)
          rw [workers, List.getElem?_set_ne, hj]
          rintro rfl
          rw [hi, Option.some.injEq] at hj
          exact before failure hj
        · exact .inr (by rw [sequencer]; exact recording)
    · intro unsettled
      refine ⟨fun before => unsettled (settled.2 before), ?_⟩
      rw [after]
      cases notice with
      | failure failure => exact absurd rfl (silent failure)
      | nothing | cancel => rfl

theorem sequencerStep? (reported : s.Reported h) (step : s.sequencerStep? = some s') :
    s'.Reported (h ++ [⟨s, .step .sequencer, s'⟩]) := by
  have move := move_of_sequencerStep? step
  have owner := move.frame.2
  have workers := workers_of_sequencerMove move
  have settled : s'.Settled ↔ s.Settled := by rw [Settled, Settled, Returned, Returned, owner]
  have carried : ∀ failure, s'.Carried failure →
      s.Carried failure ∨ s'.sequencer.phase = .recording failure := by
    rintro failure (recording | recording)
    · rw [workers] at recording
      exact .inl (.inl recording)
    · exact .inr recording
  have recorded? : (∀ failure, s.sequencer.phase ≠ .recording failure) →
      (Moment.mk s (.step .sequencer) s').recorded? = none := by
    intro before
    unfold Moment.recorded?
    dsimp only
    split
    · next recording => exact absurd recording (before _)
    · rfl
  cases move.reports with
  | meets mishap mishap? before now slot =>
    refine reported.meets mishap? (recorded? before) ?_ (.inr now) owner slot
    intro failure hfailure
    refine (carried failure hfailure).imp_right ?_
    intro recording
    rw [now, SequencerPhase.recording.injEq] at recording
    exact recording.symm
  | leaves failure mishap? before now slot =>
    refine reported.leaves mishap? ?_ ?_ (.inr before) owner slot
    · simp only [Moment.recorded?, before]
    · intro other hother
      exact (carried other hother).resolve_right (now other)
  | neither mishap? before now slot =>
    refine reported.neither mishap? (recorded? before) ?_ ?_
    · intro failure
      constructor
      · intro hfailure
        exact (carried failure hfailure).resolve_right (now failure)
      · rintro (recording | recording)
        · exact .inl (by rw [workers]; exact recording)
        · exact absurd recording (before failure)
    · intro unsettled
      exact ⟨fun before => unsettled (settled.2 before), slot⟩

theorem ownerStep? (reported : s.Reported h) (linked : s.Linked)
    (step : s.ownerStep? = some s') : s'.Reported (h ++ [⟨s, .step .owner, s'⟩]) := by
  have move := move_of_ownerStep? step
  have workers := workers_of_ownerMove move
  obtain ⟨-, sequencer, -, -⟩ := move.frame
  refine reported.neither rfl rfl ?_ ?_
  · intro failure
    rw [Carried, Carried, workers, sequencer]
  · intro unsettled
    constructor
    · rintro ⟨returned, -⟩
      exact absurd returned (not_returned_of_ownerStep? step)
    · have consistent := linked.owner
      rw [Owner.Consistent] at consistent
      cases move with
      | report phase =>
        rw [phase] at consistent
        exact absurd ⟨⟨_, rfl⟩, consistent⟩ unsettled
      | _ => rfl

theorem request (reported : s.Reported h) (r : Request) :
    (s.request r).Reported (h ++ [⟨s, .request r, s.request r⟩]) := by
  obtain ⟨phase, after⟩ := request_frame s r
  refine reported.neither rfl rfl ?_ ?_
  · intro failure
    rw [after]
    exact Iff.rfl
  · intro unsettled
    constructor
    · rintro ⟨-, closed⟩
      rw [request_of_closed closed] at unsettled
      exact unsettled ⟨⟨_, rfl⟩, closed⟩
    · rw [after]

end Reported

theorem Run.reported [BlockCompressor κ] [Sink ω] {settings : Settings} {compressors : List κ}
    {sink : ω} {h : History κ ω} {s : Pipeline κ ω}
    (run : Run (Pipeline.new settings compressors sink) h s) : s.Reported h := by
  induction run with
  | start => exact .new settings compressors sink
  | @step h s s' party run step ih =>
    cases party with
    | owner => exact ih.ownerStep? run.linked step
    | worker i => exact ih.workerStep? step
    | sequencer => exact ih.sequencerStep? step
  | request r _ _ ih => exact ih.request r

end Pipeline

end ParallelGzip
