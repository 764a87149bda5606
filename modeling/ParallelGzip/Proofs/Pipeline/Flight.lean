import Mathlib.Algebra.BigOperators.Group.Finset.Piecewise
import Mathlib.Algebra.Order.BigOperators.Group.Finset
import ParallelGzip.Compressor.Scripted
import ParallelGzip.Proofs.Pipeline.Program

set_option autoImplicit false

/-! # In flight: how many entries are under way

An entry is under way from when it has been submitted until the sequencer is done with it. On each
lane the queues have bounded room and the worker has one entry in hand at most, raw or finished but
never both; what is thrown away when a party leaves was in one of these places, so it does not open
room for more. `Lane.AddsUp` is this account of a lane, which every step keeps, and
`Pipeline.in_flight_bounded` is the sum over the lanes. Entries that have been thrown away count as
under way for ever. -/

namespace ParallelGzip

variable {κ ω : Type}

/-! ## Finished entries -/

/-- Whether a worker has something finished to send on. -/
def Worker.isSending : Worker → Bool
  | sending _ => true
  | _ => false

/-- The lane on which an entry is finished: the step of its worker leaves it with something to send
    on. -/
def Moment.finisher? (m : Moment κ ω) : Option Nat :=
  match m.act with
  | .step (.worker i) =>
    m.after.lanes[i]?.bind fun lane => if lane.worker.isSending then some i else none
  | _ => none

/-- The lanes on which entries have been finished, one after the other. -/
def History.finishers (h : History κ ω) : List Nat := h.filterMap Moment.finisher?

theorem History.finishers_concat (h : History κ ω) (m : Moment κ ω) :
    History.finishers (h ++ [m]) = h.finishers ++ m.finisher?.toList := by
  simp only [finishers, List.filterMap_append]
  cases hm : m.finisher? <;> simp [hm]

/-- At most moments nothing is finished. -/
theorem History.finishers_concat_of_none (h : History κ ω) {m : Moment κ ω}
    (none : m.finisher? = none) : History.finishers (h ++ [m]) = h.finishers := by
  rw [finishers_concat, none, Option.toList_none, List.append_nil]

/-- The step of a worker finishes an entry of its lane if it leaves the worker with something to send
    on. -/
theorem History.count_finishers_concat (h : History κ ω) (s : Pipeline κ ω) {s' : Pipeline κ ω}
    {i : Nat} {lane : Lane κ} (hlane : s'.lanes[i]? = some lane) (j : Nat) :
    (History.finishers (h ++ [⟨s, .step (.worker i), s'⟩])).count j =
      h.finishers.count j + if j = i then lane.worker.isSending.toNat else 0 := by
  rw [finishers_concat, List.count_append, Moment.finisher?]
  dsimp only
  rw [hlane, Option.bind_some]
  cases lane.worker.isSending with
  | true =>
    by_cases same : j = i
    · simp [same]
    · simp [same, Ne.symm same]
  | false => simp

theorem Moment.lt_length_of_finisher? {m : Moment κ ω} {i : Nat} (finisher? : m.finisher? = some i) :
    i < m.after.lanes.length := by
  unfold Moment.finisher? at finisher?
  split at finisher?
  · obtain ⟨lane, hlane, sending⟩ := Option.bind_eq_some_iff.1 finisher?
    split at sending
    · cases sending
      exact (List.getElem?_eq_some_iff.1 hlane).1
    · cases sending
  · cases finisher?

/-! ## The account of a lane -/

/-- What a worker has in hand: `raw` counts an entry it has not finished, `made` one it has. On its
    way out it may leave one of either behind. -/
def Worker.Holding (raw made : Nat) : Worker → Prop
  | receiving => raw = 0 ∧ made = 0
  | received _ | compressing _ _ _ => raw = 1 ∧ made = 0
  | sending _ => raw = 0 ∧ made = 1
  | _ => raw + made ≤ 1

theorem Worker.Holding.le_one {raw made : Nat} {worker : Worker}
    (holding : worker.Holding raw made) : raw + made ≤ 1 := by
  cases worker with
  | receiving | received | compressing | sending =>
    simp only [Holding] at holding
    omega
  | _ => exact holding

/-- How the entries of a lane add up. Those that have been given to it and not been finished are in
    its input queue or in the hand of the worker, or they were thrown away from there when the worker
    left; those that have been finished and not been taken are in the hand of the worker or in the
    output queue, or they were thrown away from there when the sequencer let go of it. -/
structure Lane.AddsUp (queueSize given finished taken : Nat) (lane : Lane κ)
    (raw made lostInput lostOutput : Nat) : Prop where
  holding : lane.worker.Holding raw made
  given : given = finished + lane.inbox.length + raw + lostInput
  finished : finished = taken + lane.outbox.length + made + lostOutput
  input : lane.inbox.length + lostInput ≤ queueSize
  output : lane.outbox.length + lostOutput ≤ queueSize
  inputKept : lane.worker ≠ .exited → lostInput = 0
  outputKept : lane.sequencerAttached = true → lostOutput = 0

/-- The entries of a lane add up, whatever has been thrown away. -/
def Lane.Balanced (queueSize given finished taken : Nat) (lane : Lane κ) : Prop :=
  ∃ raw made lostInput lostOutput,
    lane.AddsUp queueSize given finished taken raw made lostInput lostOutput

namespace Lane.Balanced

variable {lane lane' : Lane κ} {queueSize given finished taken : Nat}

theorem new (compressor : κ) (queueSize : Nat) : (Lane.new compressor).Balanced queueSize 0 0 0 :=
  ⟨0, 0, 0, 0, ⟨rfl, rfl⟩, rfl, rfl, Nat.zero_le _, Nat.zero_le _, fun _ => rfl, fun _ => rfl⟩

/-- What is under way on a lane is bounded. -/
theorem bounds (balanced : lane.Balanced queueSize given finished taken) :
    taken ≤ finished ∧ finished ≤ given ∧ given ≤ finished + (queueSize + 1) ∧
      finished ≤ taken + (queueSize + 1) ∧ given ≤ taken + (2 * queueSize + 1) := by
  obtain ⟨raw, made, lostInput, lostOutput, holding, given_eq, finished_eq, input, output, -, -⟩ :=
    balanced
  have := holding.le_one
  omega

/-- A worker finishes at most one entry in a step. -/
theorem move [BlockCompressor κ] {cancelled : Bool} {notice : Notice}
    (balanced : lane.Balanced queueSize given finished taken)
    (move : lane.Move queueSize cancelled lane' notice) :
    lane'.Balanced queueSize given (finished + lane'.worker.isSending.toNat) taken := by
  obtain ⟨raw, made, lostInput, lostOutput, holding, given_eq, finished_eq, input, output, inputKept,
    outputKept⟩ := balanced
  -- a worker that moves has not thrown anything away
  obtain rfl : lostInput = 0 := inputKept (Pipeline.Linked.frame_of_move move).2.2
  cases move with
  | receive worker inbox =>
    simp only [worker, Worker.Holding] at holding
    rw [inbox, List.length_cons] at given_eq input
    refine ⟨1, 0, 0, lostOutput, ⟨rfl, rfl⟩, ?_, ?_, ?_, output, fun _ => rfl, outputKept⟩
    all_goals simp only [Worker.isSending, Bool.toNat_false]; omega
  | take worker =>
    simp only [worker, Worker.Holding] at holding
    exact ⟨raw, made, 0, lostOutput, holding, given_eq, finished_eq, input, output, fun _ => rfl,
      outputKept⟩
  | pass worker | compress worker =>
    -- what was raw is made now
    simp only [worker, Worker.Holding] at holding
    refine ⟨0, 1, 0, lostOutput, ⟨rfl, rfl⟩, ?_, ?_, input, output, fun _ => rfl, outputKept⟩
    all_goals simp only [Worker.isSending, Bool.toNat_true]; omega
  | send worker attached room =>
    simp only [worker, Worker.Holding] at holding
    obtain rfl := outputKept attached
    refine ⟨0, 0, 0, 0, ⟨rfl, rfl⟩, ?_, ?_, input, ?_, fun _ => rfl, fun _ => rfl⟩
    all_goals
      simp only [Worker.isSending, Bool.toNat_false, List.length_append, List.length_singleton]
      omega
  | quit | fail | record | cancel | closeOutput =>
    exact ⟨raw, made, 0, lostOutput, holding.le_one, given_eq, finished_eq, input, output,
      fun _ => rfl, outputKept⟩
  | closeInput worker =>
    refine ⟨raw, made, lane.inbox.length, lostOutput, holding.le_one, ?_, finished_eq, ?_, output,
      fun present => absurd rfl present, outputKept⟩
    all_goals simp only [Worker.isSending, Bool.toNat_false, List.length_nil]; omega

/-- The owner puts an entry into the input queue. -/
theorem give (balanced : lane.Balanced queueSize given finished taken)
    (worker : lane.worker.holdsInput = true) (room : lane.inbox.length < queueSize)
    (entry : Entry) :
    Balanced queueSize (given + 1) finished taken
      { lane with inbox := lane.inbox ++ [entry] } := by
  obtain ⟨raw, made, lostInput, lostOutput, holding, given_eq, finished_eq, input, output, inputKept,
    outputKept⟩ := balanced
  have present : lane.worker ≠ .exited := by
    intro exited
    rw [exited] at worker
    cases worker
  obtain rfl := inputKept present
  refine ⟨raw, made, 0, lostOutput, holding, ?_, finished_eq, ?_, output, fun _ => rfl, outputKept⟩
  all_goals simp only [List.length_append, List.length_singleton]; omega

/-- The sequencer takes an entry from the output queue. -/
theorem takeOut (balanced : lane.Balanced queueSize given finished taken) {rendered : Rendered}
    {rest : List Rendered} (outbox : lane.outbox = rendered :: rest) :
    Balanced queueSize given finished (taken + 1) { lane with outbox := rest } := by
  obtain ⟨raw, made, lostInput, lostOutput, holding, given_eq, finished_eq, input, output, inputKept,
    outputKept⟩ := balanced
  rw [outbox, List.length_cons] at finished_eq output
  exact ⟨raw, made, lostInput, lostOutput, holding, given_eq, by dsimp only; omega, input,
    by dsimp only; omega, inputKept, outputKept⟩

/-- The owner lets go of the input queue. -/
theorem detachOwner (balanced : lane.Balanced queueSize given finished taken) :
    Balanced queueSize given finished taken { lane with ownerAttached := false } := by
  obtain ⟨raw, made, lostInput, lostOutput, holding, given_eq, finished_eq, input, output, inputKept,
    outputKept⟩ := balanced
  exact ⟨raw, made, lostInput, lostOutput, holding, given_eq, finished_eq, input, output, inputKept,
    outputKept⟩

/-- The sequencer lets go of the output queue. -/
theorem detachSequencer (balanced : lane.Balanced queueSize given finished taken) :
    Balanced queueSize given finished taken
      { lane with outbox := [], sequencerAttached := false } := by
  obtain ⟨raw, made, lostInput, lostOutput, holding, given_eq, finished_eq, input, output, inputKept,
    outputKept⟩ := balanced
  refine ⟨raw, made, lostInput, lostOutput + lane.outbox.length, holding, given_eq, ?_, input, ?_,
    inputKept, nofun⟩
  all_goals simp only [List.length_nil]; omega

end Lane.Balanced

/-! ## All lanes together -/

/-- The lanes take turns, so what they have been given is all there is. -/
theorem sum_length_turns {α : Type} {n : Nat} (hn : 0 < n) (xs : List α) :
    ∑ i ∈ Finset.range n, (turns n i xs).length = xs.length := by
  induction xs using List.reverseRecOn with
  | nil => simp
  | append_singleton xs x ih =>
    have here : ∀ i, (turns n i (xs ++ [x])).length =
        (turns n i xs).length + if xs.length % n = i then 1 else 0 := by
      intro i
      rw [turns_append_singleton, List.length_append]
      split <;> rfl
    simp only [here, Finset.sum_add_distrib, ih, Finset.sum_ite_eq, Finset.mem_range,
      Nat.mod_lt _ hn, if_true, List.length_append, List.length_singleton]

theorem sum_count_eq_length {n : Nat} {xs : List Nat} (bounded : ∀ x ∈ xs, x < n) :
    ∑ i ∈ Finset.range n, xs.count i = xs.length := by
  have sum := Multiset.sum_count_eq_card (s := Finset.range n) (m := (xs : Multiset Nat))
    fun x hx => Finset.mem_range.2 (bounded x hx)
  simpa only [Multiset.coe_count, Multiset.coe_card] using sum

/-- What is at most so much more on each lane is at most so many times as much more on all lanes
    together. -/
theorem sum_le_sum_add {n c : Nat} {f g : Nat → Nat} (le : ∀ i ∈ Finset.range n, f i ≤ g i + c) :
    ∑ i ∈ Finset.range n, f i ≤ ∑ i ∈ Finset.range n, g i + n * c := by
  calc ∑ i ∈ Finset.range n, f i
      ≤ ∑ i ∈ Finset.range n, (g i + c) := Finset.sum_le_sum le
    _ = ∑ i ∈ Finset.range n, g i + n * c := by
      rw [Finset.sum_add_distrib, Finset.sum_const, Finset.card_range, Nat.nsmul_eq_mul]

namespace Pipeline

/-- The entries add up on each of `n` lanes. -/
def Balanced (n : Nat) (h : History κ ω) (s : Pipeline κ ω) : Prop :=
  ∀ (i : Nat) (lane : Lane κ), s.lanes[i]? = some lane →
    lane.Balanced s.settings.queueSize (turns n i h.entries).length (h.finishers.count i)
      (turns n i h.taken).length

namespace Balanced

variable [BlockCompressor κ] {compressors : List κ} {h : History κ ω} {s s' : Pipeline κ ω}

omit [BlockCompressor κ] in
theorem new (settings : Settings) (compressors : List κ) (sink : ω) (n : Nat) :
    Balanced n [] (Pipeline.new settings compressors sink) := by
  intro i lane hlane
  simp only [Pipeline.new, List.getElem?_map, Option.map_eq_some_iff] at hlane
  obtain ⟨compressor, -, rfl⟩ := hlane
  exact .new compressor settings.queueSize

theorem workerStep? {n : Nat} (balanced : s.Balanced n h) {i : Nat}
    (step : s.workerStep? i = some s') :
    s'.Balanced n (h ++ [⟨s, .step (.worker i), s'⟩]) := by
  obtain ⟨lane, lane', notice, hlane, move, after⟩ := move_of_workerStep? step
  have lanes : s'.lanes = s.lanes.set i lane' := by rw [after, post_lanes]
  have hlane' : s'.lanes[i]? = some lane' := by
    rw [lanes, List.getElem?_set_self (List.getElem?_eq_some_iff.1 hlane).1]
  intro j found hfound
  rw [(frame_of_workerStep? step).settings, History.entries_concat_of_none h rfl,
    History.taken_concat_of_none h rfl, History.count_finishers_concat h s hlane']
  rw [lanes] at hfound
  rcases getElem?_set_cases hfound with ⟨rfl, rfl⟩ | ⟨other, hold⟩
  · rw [if_pos rfl]
    exact (balanced j lane hlane).move move
  · rw [if_neg other]
    exact balanced j found hold

theorem ownerStep? (balanced : s.Balanced compressors.length h) (ordered : s.Ordered compressors h)
    (step : s.ownerStep? = some s') :
    s'.Balanced compressors.length (h ++ [⟨s, .step .owner, s'⟩]) := by
  have move := move_of_ownerStep? step
  have same : s'.owner.submitted = s.owner.submitted → _ := History.entries_of_submitted_eq h
  intro j found hfound
  rw [move.frame.1, History.taken_concat_of_none h rfl, History.finishers_concat_of_none h rfl]
  cases move with
  | @send entry lane submission? turn worker room =>
    have more : s.ownerAfterSending.submitted = s.owner.submitted + 1 :=
      ownerAfterSending_submitted submission?
    -- the entry is of the lane it was sent to, as entry `h.entries.length`
    have hturn : h.entries.length % compressors.length = s.ownerTurn := by
      rw [ordered.entries_length, ← ordered.lanes_length, ownerTurn]
    rw [History.entries_of_submitted_succ h submission? more]
    rcases getElem?_set_cases hfound with ⟨rfl, rfl⟩ | ⟨other, hold⟩
    · rw [turns_append_of_eq hturn, List.length_append, List.length_singleton]
      exact (balanced _ lane turn).give worker room entry
    · rw [turns_append_of_ne (by omega)]
      exact balanced j found hold
  | closeLane phase lane? =>
    rw [same rfl]
    rcases getElem?_set_cases hfound with ⟨rfl, rfl⟩ | ⟨-, hold⟩
    · exact (balanced j _ lane?).detachOwner
    · exact balanced j found hold
  | _ =>
    rw [same rfl]
    exact balanced j found hfound

theorem sequencerStep? [Sink ω] (balanced : s.Balanced compressors.length h)
    (ordered : s.Ordered compressors h) (step : s.sequencerStep? = some s') :
    s'.Balanced compressors.length (h ++ [⟨s, .step .sequencer, s'⟩]) := by
  have move := move_of_sequencerStep? step
  intro j found hfound
  rw [move.frame.1, History.entries_concat_of_none h rfl, History.finishers_concat_of_none h rfl]
  have untaken : (∀ rendered, s'.sequencer.phase ≠ .received rendered) →
      History.taken (h ++ [⟨s, .step .sequencer, s'⟩]) = h.taken := by
    intro hphase
    refine History.taken_concat_of_none h ?_
    unfold Moment.taken?
    split
    · next received => exact absurd received (hphase _)
    · rfl
  cases move.touches with
  | nothing lanes phase =>
    rw [untaken phase]
    rw [lanes] at hfound
    exact balanced j found hfound
  | detached i lane lane? lanes phase =>
    rw [untaken phase]
    rw [lanes] at hfound
    rcases getElem?_set_cases hfound with ⟨rfl, rfl⟩ | ⟨-, hold⟩
    · exact (balanced j lane lane?).detachSequencer
    · exact balanced j found hold
  | took lane rendered rest phase turn outbox lanes next =>
    have taken : History.taken (h ++ [⟨s, .step .sequencer, s'⟩]) = h.taken ++ [rendered] := by
      rw [History.taken_concat, Moment.taken?]
      simp only [next, Option.toList_some]
    -- the entry is of the lane it was taken from, as entry `h.taken.length`
    have hcount := ordered.taken_length
    rw [phase, SequencerPhase.Took] at hcount
    have hturn : h.taken.length % compressors.length = s.sequencerTurn := by
      rw [hcount, ← ordered.lanes_length, sequencerTurn]
    rw [taken]
    rw [lanes] at hfound
    rcases getElem?_set_cases hfound with ⟨rfl, rfl⟩ | ⟨other, hold⟩
    · rw [turns_append_of_eq hturn, List.length_append, List.length_singleton]
      exact (balanced _ lane turn).takeOut outbox
    · rw [turns_append_of_ne (by omega)]
      exact balanced j found hold

omit [BlockCompressor κ] in
theorem request {n : Nat} (balanced : s.Balanced n h) (r : Request) :
    (s.request r).Balanced n (h ++ [⟨s, .request r, s.request r⟩]) := by
  obtain ⟨phase, after⟩ := request_frame s r
  intro j found hfound
  rw [History.entries_concat_of_none h rfl, History.taken_concat_of_none h rfl,
    History.finishers_concat_of_none h rfl]
  rw [after] at hfound ⊢
  exact balanced j found hfound

end Balanced

section Runs

variable [BlockCompressor κ] [Sink ω] {settings : Settings} {compressors : List κ} {sink : ω}
  {h : History κ ω} {s : Pipeline κ ω}

theorem Run.balanced (run : Run (Pipeline.new settings compressors sink) h s) :
    s.Balanced compressors.length h := by
  induction run with
  | start => exact .new settings compressors sink _
  | @step _ _ _ party run step ih =>
    cases party with
    | owner => exact ih.ownerStep? run.ordered step
    | worker i => exact ih.workerStep? step
    | sequencer => exact ih.sequencerStep? run.ordered step
  | request r _ _ ih => exact ih.request r

/-- An entry is finished on one of the lanes. -/
theorem Run.lt_of_mem_finishers (run : Run (Pipeline.new settings compressors sink) h s) {i : Nat}
    (hi : i ∈ h.finishers) : i < compressors.length := by
  obtain ⟨m, hm, finisher?⟩ := List.mem_filterMap.1 hi
  obtain ⟨h₁, h₂, rfl⟩ := List.append_of_mem hm
  rw [← run.split.2.ordered.lanes_length]
  exact m.lt_length_of_finisher? finisher?

/-- A move of the sequencer leaves it with one entry in hand at most. -/
theorem taken_length_le_of_move (ordered : s.Ordered compressors h)
    (le : h.taken.length ≤ s.sequencer.index + 1) {s' : Pipeline κ ω} (move : s.SequencerMove s') :
    (History.taken (h ++ [⟨s, .step .sequencer, s'⟩])).length ≤ s'.sequencer.index + 1 := by
  have after := ordered.took move
  cases move with
  | receive | write | flush => exact Nat.le_of_eq after
  | interrupted phase =>
    rw [phase] at after
    exact Nat.le_of_eq after
  | @start rendered => cases rendered <;> exact Nat.le_of_eq after
  | @finish thenFlush => cases thenFlush <;> exact Nat.le_of_eq after
  | advance => exact Nat.le_succ_of_le (Nat.le_of_eq after)
  | leave | fail | record | cancel | closeLane | exit =>
    rw [History.taken_concat_of_none h rfl]
    exact le

/-- The sequencer has one entry in hand at most. -/
theorem Run.taken_length_le (run : Run (Pipeline.new settings compressors sink) h s) :
    h.taken.length ≤ s.sequencer.index + 1 := by
  induction run with
  | start => exact Nat.zero_le _
  | @step h s s' party run step ih =>
    cases party with
    | owner =>
      rw [History.taken_concat_of_none h rfl, (move_of_ownerStep? step).frame.2.1]
      exact ih
    | worker i =>
      rw [History.taken_concat_of_none h rfl, (frame_of_workerStep? step).sequencer]
      exact ih
    | sequencer => exact taken_length_le_of_move run.ordered ih (move_of_sequencerStep? step)
  | @request h s r run _ ih =>
    obtain ⟨phase, after⟩ := request_frame s r
    rw [History.taken_concat_of_none h rfl, after]
    exact ih

/-- The entries of a writer add up on each of its lanes. -/
theorem Run.lane_bounds (run : Run (Pipeline.new settings compressors sink) h s) {i : Nat}
    (hi : i < compressors.length) :
    (turns compressors.length i h.taken).length ≤ h.finishers.count i ∧
      h.finishers.count i ≤ (turns compressors.length i h.entries).length ∧
      (turns compressors.length i h.entries).length ≤
        h.finishers.count i + (settings.queueSize + 1) ∧
      h.finishers.count i ≤
        (turns compressors.length i h.taken).length + (settings.queueSize + 1) ∧
      (turns compressors.length i h.entries).length ≤
        (turns compressors.length i h.taken).length + (2 * settings.queueSize + 1) := by
  rw [← run.ordered.lanes_length] at hi
  have balanced := run.balanced i _ (List.getElem?_eq_getElem hi)
  rw [run.fits.1] at balanced
  exact balanced.bounds

/-- What is under way in a writer is bounded, whatever steps its parties take and whatever fails.
    Entries are submitted, finished by their workers, taken by the sequencer and sequenced, in this
    order; what has been done of one thing is ahead of the next by no more than the queues and the
    hands of the parties hold. -/
theorem in_flight_bounded (nonempty : compressors ≠ [])
    (run : Run (Pipeline.new settings compressors sink) h s) :
    (s.sequenced ≤ h.taken.length ∧ h.taken.length ≤ h.finishers.length ∧
        h.finishers.length ≤ h.entries.length) ∧
      h.entries.length ≤ h.finishers.length + compressors.length * (settings.queueSize + 1) ∧
      h.finishers.length ≤ h.taken.length + compressors.length * (settings.queueSize + 1) ∧
      h.entries.length ≤ s.sequenced + (compressors.length * (2 * settings.queueSize + 1) + 1) := by
  have pos : 0 < compressors.length := List.length_pos_iff.2 nonempty
  have lane : ∀ i ∈ Finset.range compressors.length, _ := fun i hi =>
    run.lane_bounds (Finset.mem_range.1 hi)
  -- the sequencer is at most one entry behind what it has taken
  have first := run.ordered.taken_length.le
  have last := run.taken_length_le
  rw [← run.linked.sequenced] at first last
  have untaken : h.entries.length ≤
      h.taken.length + compressors.length * (2 * settings.queueSize + 1) := by
    rw [← sum_length_turns pos h.entries, ← sum_length_turns pos h.taken]
    exact sum_le_sum_add fun i hi => (lane i hi).2.2.2.2
  rw [← sum_count_eq_length fun i hi => run.lt_of_mem_finishers hi]
  refine ⟨⟨first, ?taken, ?finished⟩, ?unfinished, ?waiting, by omega⟩
  case taken =>
    rw [← sum_length_turns pos h.taken]
    exact Finset.sum_le_sum fun i hi => (lane i hi).1
  case finished =>
    rw [← sum_length_turns pos h.entries]
    exact Finset.sum_le_sum fun i hi => (lane i hi).2.1
  case unfinished =>
    rw [← sum_length_turns pos h.entries]
    exact sum_le_sum_add fun i hi => (lane i hi).2.2.1
  case waiting =>
    rw [← sum_length_turns pos h.taken]
    exact sum_le_sum_add fun i hi => (lane i hi).2.2.2.1

end Runs

/-- A writer with one lane and room for one entry in each queue has as much under way as it can when
    four entries have been submitted and none has been sequenced: the sequencer, the output queue,
    the worker and the input queue hold one each. -/
theorem in_flight_bounded_full :
    ∃ (h : History ScriptedCompressor (Array UInt8)) (s : Pipeline ScriptedCompressor (Array UInt8)),
      Run (Pipeline.new ⟨6, 1, 1, Nat.one_pos, Nat.one_pos⟩ [ScriptedCompressor.mk .copy 0 0] #[])
        h s ∧ h.entries.length = 4 ∧ s.sequenced = 0 ∧
      h.entries.length ≤ s.sequenced + (1 * (2 * 1 + 1) + 1) := by
  have run : Run (Pipeline.new ⟨6, 1, 1, Nat.one_pos, Nat.one_pos⟩
    [ScriptedCompressor.mk .copy 0 0] (#[] : Array UInt8)) _ _ := Pipeline.Run.start
  have asked := run.request (.submit [1, 2, 3, 4]) ⟨.ok 0, rfl⟩
  have looked := asked.step (show Pipeline.step? _ .owner = some _ from rfl)
  have sent₁ := looked.step (show Pipeline.step? _ .owner = some _ from rfl)
  have received₁ := sent₁.step (show Pipeline.step? _ (.worker 0) = some _ from rfl)
  have sent₂ := received₁.step (show Pipeline.step? _ .owner = some _ from rfl)
  have begun₁ := sent₂.step (show Pipeline.step? _ (.worker 0) = some _ from rfl)
  have made₁ := begun₁.step (show Pipeline.step? _ (.worker 0) = some _ from rfl)
  have passed₁ := made₁.step (show Pipeline.step? _ (.worker 0) = some _ from rfl)
  have received₂ := passed₁.step (show Pipeline.step? _ (.worker 0) = some _ from rfl)
  have sent₃ := received₂.step (show Pipeline.step? _ .owner = some _ from rfl)
  have taken₁ := sent₃.step (show Pipeline.step? _ .sequencer = some _ from rfl)
  have begun₂ := taken₁.step (show Pipeline.step? _ (.worker 0) = some _ from rfl)
  have made₂ := begun₂.step (show Pipeline.step? _ (.worker 0) = some _ from rfl)
  have passed₂ := made₂.step (show Pipeline.step? _ (.worker 0) = some _ from rfl)
  have received₃ := passed₂.step (show Pipeline.step? _ (.worker 0) = some _ from rfl)
  have sent₄ := received₃.step (show Pipeline.step? _ .owner = some _ from rfl)
  exact ⟨_, _, sent₄, sent₄.ordered.entries_length, rfl,
    (in_flight_bounded (List.cons_ne_nil _ _) sent₄).2.2.2⟩

end Pipeline

end ParallelGzip
