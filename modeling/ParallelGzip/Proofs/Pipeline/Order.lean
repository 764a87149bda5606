import Mathlib.Tactic.ByContra
import ParallelGzip.Proofs.Pipeline.History
import ParallelGzip.Proofs.Pipeline.Turns

set_option autoImplicit false

/-! # Order: the sequencer takes entries in the order in which they were submitted

No party looks at the number of an entry, so the order rests on an invariant. On each lane, the
entries it has been given are those it has worked on, followed by the one in the hand of the worker
and by those in its input queue; what it has made of the former is what the sequencer has taken from
it, followed by what is in its output queue and in the hand of the worker. Owner and sequencer both
go round the lanes, one entry at a time. `Ordered.rendering_of_taken` is what follows: entry `p` the
sequencer takes is what the compressor of lane `p % n` makes of entry `p`, after the entries of that
lane before it. -/

namespace ParallelGzip

variable {κ ω : Type}

/-! ## What becomes of the entries of a lane -/

/-- What a compressor makes of an entry, unless it fails; the end of a member passes through. -/
def compressEntry [BlockCompressor κ] (compressor : κ) : Entry → Option (Rendered × κ)
  | .memberEnd next => some (.memberEnd next, compressor)
  | .block number data dictionary =>
    match BlockCompressor.compress compressor data dictionary with
    | (.block compressed, after) => some (.block number compressed, after)
    | _ => none

/-- What a compressor makes of entries one after the other, unless it fails. -/
def compressEntries [BlockCompressor κ] (compressor : κ) :
    List Entry → Option (List Rendered × κ)
  | [] => some ([], compressor)
  | entry :: entries =>
    match compressEntry compressor entry with
    | none => none
    | some (rendered, after) =>
      match compressEntries after entries with
      | none => none
      | some (rest, last) => some (rendered :: rest, last)

/-- What becomes of entry `p` when the entries are dealt out to the compressors in turn: what the
    compressor of its lane returns when it is given the entries of that lane in order. -/
def rendering [BlockCompressor κ] (compressors : List κ) (entries : List Entry) (p : Nat) :
    Option Rendered :=
  match compressors[p % compressors.length]? with
  | none => none
  | some compressor =>
    match compressEntries compressor
        ((turns compressors.length (p % compressors.length) entries).take
          (p / compressors.length + 1)) with
    | none => none
    | some (rendered, _) => rendered[p / compressors.length]?

section CompressEntries

variable [BlockCompressor κ] {compressor after : κ} {entries : List Entry}
  {rendered : List Rendered}

theorem length_of_compressEntries
    (h : compressEntries compressor entries = some (rendered, after)) :
    rendered.length = entries.length := by
  induction entries generalizing compressor rendered with
  | nil =>
    cases h
    rfl
  | cons entry entries ih =>
    rw [compressEntries] at h
    split at h
    · cases h
    · split at h
      · cases h
      · next hrest =>
        cases h
        simp [ih hrest]

theorem compressEntries_append (compressor : κ) (first second : List Entry) :
    compressEntries compressor (first ++ second) =
      match compressEntries compressor first with
      | none => none
      | some (rendered, after) =>
        match compressEntries after second with
        | none => none
        | some (rest, last) => some (rendered ++ rest, last) := by
  induction first generalizing compressor with
  | nil =>
    simp only [List.nil_append, compressEntries]
    cases compressEntries compressor second <;> rfl
  | cons entry first ih =>
    simp only [List.cons_append, compressEntries]
    cases hentry : compressEntry compressor entry with
    | none => rfl
    | some made =>
      simp only [ih]
      cases compressEntries made.2 first with
      | none => rfl
      | some done =>
        simp only
        cases compressEntries done.2 second <;> rfl

theorem compressEntries_append_singleton {entry : Entry} {made : Rendered} {last : κ}
    (h : compressEntries compressor entries = some (rendered, after))
    (hentry : compressEntry after entry = some (made, last)) :
    compressEntries compressor (entries ++ [entry]) = some (rendered ++ [made], last) := by
  simp only [compressEntries_append, h, compressEntries, hentry]

theorem compressEntries_take (h : compressEntries compressor entries = some (rendered, after))
    (k : Nat) :
    ∃ last, compressEntries compressor (entries.take k) = some (rendered.take k, last) := by
  rw [← List.take_append_drop k entries, compressEntries_append] at h
  cases hfirst : compressEntries compressor (entries.take k) with
  | none => simp [hfirst] at h
  | some first =>
    obtain ⟨made, last⟩ := first
    simp only [hfirst] at h
    cases hsecond : compressEntries last (entries.drop k) with
    | none => simp [hsecond] at h
    | some second =>
      simp only [hsecond, Option.some.injEq, Prod.mk.injEq] at h
      refine ⟨last, ?_⟩
      have hlen := length_of_compressEntries hfirst
      rw [List.length_take] at hlen
      rw [← h.1]
      by_cases hk : k ≤ entries.length
      · rw [List.take_left' (by omega)]
      · have hnil : entries.drop k = [] := List.drop_eq_nil_of_le (by omega)
        rw [hnil] at hsecond
        cases hsecond
        rw [List.append_nil, List.take_of_length_le (by omega)]

end CompressEntries

section Rendering

variable [BlockCompressor κ] {compressors : List κ} {entries : List Entry} {p : Nat}

/-- An entry has got to be there for something to become of it. -/
theorem lt_length_of_rendering {made : Rendered}
    (h : rendering compressors entries p = some made) : p < entries.length := by
  unfold rendering at h
  split at h
  · cases h
  · next compressor hcompressor =>
    split at h
    · cases h
    · next rendered after hmade =>
      have hturn := (List.getElem?_eq_some_iff.1 hcompressor).1
      have hround := (List.getElem?_eq_some_iff.1 h).1
      rw [length_of_compressEntries hmade, List.length_take] at hround
      have hfound := getElem?_turns (Nat.zero_lt_of_lt hturn) entries p
      rw [List.getElem?_eq_getElem (by omega)] at hfound
      exact (List.getElem?_eq_some_iff.1 hfound.symm).1

/-- What becomes of an entry does not depend on the entries behind it. -/
theorem rendering_append (more : List Entry) (hp : p < entries.length) :
    rendering compressors (entries ++ more) p = rendering compressors entries p := by
  unfold rendering
  cases hcompressor : compressors[p % compressors.length]? with
  | none => rfl
  | some compressor =>
    have hturn := (List.getElem?_eq_some_iff.1 hcompressor).1
    have hfound := getElem?_turns (Nat.zero_lt_of_lt hturn) entries p
    rw [List.getElem?_eq_getElem hp] at hfound
    have hround := (List.getElem?_eq_some_iff.1 hfound).1
    obtain ⟨behind, hbehind⟩ := turns_isPrefix compressors.length (p % compressors.length)
      (List.prefix_append entries more)
    simp only [← hbehind, List.take_append_of_le_length (Nat.succ_le_of_lt hround)]

/-- Nothing becomes of an entry that its compressor fails on. -/
theorem rendering_eq_none {i : Nat} {compressor after : κ} {done later : List Entry}
    {made : List Rendered} {entry : Entry} (hcompressor : compressors[i]? = some compressor)
    (hgiven : turns compressors.length i entries = done ++ entry :: later)
    (hdone : compressEntries compressor done = some (made, after))
    (fails : compressEntry after entry = none) :
    ∃ p, entries[p]? = some entry ∧ rendering compressors entries p = none := by
  have hi := (List.getElem?_eq_some_iff.1 hcompressor).1
  have hn : 0 < compressors.length := Nat.zero_lt_of_lt hi
  have hturn : (done.length * compressors.length + i) % compressors.length = i := by
    rw [Nat.mul_add_mod_of_lt hi]
  have hround : (done.length * compressors.length + i) / compressors.length = done.length := by
    rw [Nat.mul_comm, Nat.mul_add_div hn, Nat.div_eq_of_lt hi, Nat.add_zero]
  refine ⟨done.length * compressors.length + i, ?_, ?_⟩
  · rw [← getElem?_turns hn, hturn, hround, hgiven]
    simp
  · have htake : (done ++ entry :: later).take (done.length + 1) = done ++ [entry] := by
      rw [List.take_length_add_append]
      rfl
    simp only [rendering, hturn, hround, hcompressor, hgiven, htake, compressEntries_append, hdone,
      compressEntries, fails]

end Rendering

/-! ## One lane -/

/-- How a live worker stands to the entries it has not worked on (`later`), to what it has made but
    the sequencer has neither taken nor got in its queue (`unsent`), and to the compressor it works
    with. -/
def Lane.Holds (lane : Lane κ) (later : List Entry) (unsent : List Rendered) (compressor : κ) :
    Prop :=
  match lane.worker with
  | .receiving =>
    later = lane.inbox ∧ compressor = lane.compressor ∧
      (lane.sequencerAttached = true → unsent = [])
  | .received entry =>
    later = entry :: lane.inbox ∧ compressor = lane.compressor ∧
      (lane.sequencerAttached = true → unsent = [])
  | .compressing number data dictionary =>
    later = .block number data dictionary :: lane.inbox ∧ compressor = lane.compressor ∧
      (lane.sequencerAttached = true → unsent = [])
  | .sending rendered =>
    later = lane.inbox ∧ compressor = lane.compressor ∧
      (lane.sequencerAttached = true → unsent = [rendered])
  | _ => True

/-- A lane that began with `compressor`, has been given the entries `given`, and has had `taken`
    from it by the sequencer. -/
def Lane.Follows [BlockCompressor κ] (compressor : κ) (given : List Entry) (taken : List Rendered)
    (lane : Lane κ) : Prop :=
  ∃ done later unsent now, given = done ++ later ∧
    compressEntries compressor done = some (taken ++ lane.outbox ++ unsent, now) ∧
    lane.Holds later unsent now

section Follows

variable [BlockCompressor κ] {compressor : κ} {given : List Entry} {taken : List Rendered}
  {lane lane' : Lane κ}

theorem Lane.follows_new (compressor : κ) : (Lane.new compressor).Follows compressor [] [] :=
  ⟨[], [], [], compressor, rfl, rfl, rfl, rfl, fun _ => rfl⟩

theorem Lane.Follows.move {queueSize : Nat} {cancelled : Bool} {notice : Notice}
    (follows : lane.Follows compressor given taken)
    (move : lane.Move queueSize cancelled lane' notice) :
    lane'.Follows compressor given taken := by
  obtain ⟨done, later, unsent, now, hgiven, hmade, holds⟩ := follows
  cases move with
  | receive worker inbox =>
    simp only [Holds, worker] at holds
    exact ⟨done, later, unsent, now, hgiven, hmade, holds.1.trans inbox, holds.2⟩
  | take worker going =>
    simp only [Holds, worker] at holds
    exact ⟨done, later, unsent, now, hgiven, hmade, holds⟩
  | @pass next worker going =>
    simp only [Holds, worker] at holds
    obtain ⟨hlater, hnow, hunsent⟩ := holds
    refine ⟨done ++ [.memberEnd next], lane.inbox, unsent ++ [.memberEnd next], now, ?_, ?_, ?_⟩
    · rw [hgiven, hlater, List.append_assoc, List.singleton_append]
    · rw [← List.append_assoc]
      exact compressEntries_append_singleton hmade rfl
    · exact ⟨rfl, hnow, fun attached => by rw [hunsent attached, List.nil_append]⟩
  | @compress number data dictionary compressed after worker result =>
    simp only [Holds, worker] at holds
    obtain ⟨hlater, hnow, hunsent⟩ := holds
    refine ⟨done ++ [.block number data dictionary], lane.inbox,
      unsent ++ [.block number compressed], after, ?_, ?_, ?_⟩
    · rw [hgiven, hlater, List.append_assoc, List.singleton_append]
    · rw [← List.append_assoc]
      refine compressEntries_append_singleton hmade ?_
      simp only [compressEntry, hnow, result]
    · exact ⟨rfl, rfl, fun attached => by rw [hunsent attached, List.nil_append]⟩
  | @send rendered worker attached room =>
    simp only [Holds, worker] at holds
    obtain ⟨hlater, hnow, hunsent⟩ := holds
    refine ⟨done, later, [], now, hgiven, ?_, hlater, hnow, fun _ => rfl⟩
    rw [hunsent attached] at hmade
    rw [List.append_nil, ← List.append_assoc]
    exact hmade
  | quit quits => exact ⟨done, later, unsent, now, hgiven, hmade, trivial⟩
  | fail mishap? => exact ⟨done, later, unsent, now, hgiven, hmade, trivial⟩
  | record worker => exact ⟨done, later, unsent, now, hgiven, hmade, trivial⟩
  | cancel worker => exact ⟨done, later, unsent, now, hgiven, hmade, trivial⟩
  | closeOutput worker => exact ⟨done, later, unsent, now, hgiven, hmade, trivial⟩
  | closeInput worker => exact ⟨done, later, unsent, now, hgiven, hmade, trivial⟩

/-- The owner puts an entry into the input queue. -/
theorem Lane.Follows.give (follows : lane.Follows compressor given taken) (entry : Entry) :
    Lane.Follows compressor (given ++ [entry]) taken
      { lane with inbox := lane.inbox ++ [entry] } := by
  obtain ⟨done, later, unsent, now, hgiven, hmade, holds⟩ := follows
  refine ⟨done, later ++ [entry], unsent, now, ?_, hmade, ?_⟩
  · rw [hgiven, List.append_assoc]
  · cases worker : lane.worker with
    | receiving | sending =>
      simp only [Holds, worker] at holds ⊢
      exact ⟨by rw [holds.1], holds.2⟩
    | received | compressing =>
      simp only [Holds, worker] at holds ⊢
      exact ⟨by rw [holds.1, List.cons_append], holds.2⟩
    | _ => simp only [Holds]

/-- The owner lets go of the input queue. -/
theorem Lane.Follows.detachOwner (follows : lane.Follows compressor given taken) :
    Lane.Follows compressor given taken { lane with ownerAttached := false } := follows

/-- The sequencer takes an entry from the output queue. -/
theorem Lane.Follows.takeOut (follows : lane.Follows compressor given taken) {rendered : Rendered}
    {rest : List Rendered} (outbox : lane.outbox = rendered :: rest) :
    Lane.Follows compressor given (taken ++ [rendered]) { lane with outbox := rest } := by
  obtain ⟨done, later, unsent, now, hgiven, hmade, holds⟩ := follows
  refine ⟨done, later, unsent, now, hgiven, ?_, holds⟩
  rw [hmade, outbox]
  simp

/-- The sequencer lets go of the output queue. -/
theorem Lane.Follows.detachSequencer (follows : lane.Follows compressor given taken) :
    Lane.Follows compressor given taken
      { lane with outbox := [], sequencerAttached := false } := by
  obtain ⟨done, later, unsent, now, hgiven, hmade, holds⟩ := follows
  refine ⟨done, later, lane.outbox ++ unsent, now, hgiven, ?_, ?_⟩
  · rw [hmade]
    simp
  · cases worker : lane.worker with
    | receiving | received | compressing | sending =>
      simp only [Holds, worker] at holds ⊢
      exact ⟨holds.1, holds.2.1, fun attached => by cases attached⟩
    | _ => simp only [Holds]

/-- The block that a compressor fails on is the first it has not worked on. -/
theorem Lane.Follows.of_mishap? {mishap : Mishap} (follows : lane.Follows compressor given taken)
    (mishap? : lane.mishap? = some mishap) :
    ∃ done later made now number data dictionary,
      given = done ++ .block number data dictionary :: later ∧
      compressEntries compressor done = some (made, now) ∧
      compressEntry now (.block number data dictionary) = none ∧
      mishap.number? = some number := by
  obtain ⟨done, later, unsent, now, hgiven, hmade, holds⟩ := follows
  unfold Lane.mishap? at mishap?
  split at mishap?
  · next number data dictionary worker =>
    simp only [Holds, worker] at holds
    obtain ⟨hlater, hnow, -⟩ := holds
    refine ⟨done, lane.inbox, _, now, number, data, dictionary, ?_, hmade, ?_⟩
    · rw [hgiven, hlater]
    · rw [compressEntry, hnow]
      split at mishap?
      · cases mishap?
      · next cause fails =>
        cases mishap?
        exact ⟨by split <;> simp_all, rfl⟩
      · next fails =>
        cases mishap?
        exact ⟨by split <;> simp_all, rfl⟩
  · cases mishap?

/-- What the sequencer has taken is what the lane's compressor returned. -/
theorem Lane.Follows.compressEntries_take (follows : lane.Follows compressor given taken) {k : Nat}
    (hk : k ≤ taken.length) :
    ∃ last, compressEntries compressor (given.take k) = some (taken.take k, last) := by
  obtain ⟨done, later, unsent, now, hgiven, hmade, -⟩ := follows
  have hlen := length_of_compressEntries hmade
  simp only [List.length_append] at hlen
  obtain ⟨last, hlast⟩ := ParallelGzip.compressEntries_take hmade k
  refine ⟨last, ?_⟩
  rw [hgiven, List.take_append_of_le_length (by omega), hlast, List.append_assoc,
    List.take_append_of_le_length hk]

end Follows

/-! ## All lanes together -/

/-- How many entries a sequencer at entry `index` has taken, as far as its phase tells. -/
def SequencerPhase.Took (phase : SequencerPhase) (index count : Nat) : Prop :=
  match phase with
  | .receiving => count = index
  | .received _ | .writing _ _ | .flushing | .advancing => count = index + 1
  | _ => index ≤ count

theorem SequencerPhase.Took.le {phase : SequencerPhase} {index count : Nat}
    (took : phase.Took index count) : index ≤ count := by
  unfold Took at took
  split at took <;> omega

/-- The order that a run of a new writer keeps. -/
structure Pipeline.Ordered [BlockCompressor κ] (compressors : List κ) (h : History κ ω)
    (s : Pipeline κ ω) : Prop where
  lanes_length : s.lanes.length = compressors.length
  entries_length : h.entries.length = s.owner.submitted
  taken_length : s.sequencer.phase.Took s.sequencer.index h.taken.length
  follows : ∀ (i : Nat) (compressor : κ) (lane : Lane κ), compressors[i]? = some compressor →
    s.lanes[i]? = some lane → lane.Follows compressor (turns compressors.length i h.entries)
      (turns compressors.length i h.taken)

namespace Pipeline

variable [BlockCompressor κ] {compressors : List κ} {h : History κ ω} {s s' : Pipeline κ ω}

namespace Ordered

theorem new (settings : Settings) (compressors : List κ) (sink : ω) :
    Ordered compressors [] (Pipeline.new settings compressors sink) where
  lanes_length := by simp only [Pipeline.new, List.length_map]
  entries_length := rfl
  taken_length := rfl
  follows := by
    intro i compressor lane hcompressor hlane
    simp only [Pipeline.new, List.getElem?_map, hcompressor, Option.map_some,
      Option.some.injEq] at hlane
    subst hlane
    exact Lane.follows_new compressor

theorem workerStep? (ordered : s.Ordered compressors h) {i : Nat}
    (step : s.workerStep? i = some s') :
    s'.Ordered compressors (h ++ [⟨s, .step (.worker i), s'⟩]) := by
  obtain ⟨lane, lane', notice, hlane, move, after⟩ := move_of_workerStep? step
  have entries : History.entries (h ++ [⟨s, .step (.worker i), s'⟩]) = h.entries :=
    History.entries_concat_of_none h rfl
  have taken : History.taken (h ++ [⟨s, .step (.worker i), s'⟩]) = h.taken :=
    History.taken_concat_of_none h rfl
  refine ⟨?lanes_length, ?entries_length, ?taken_length, ?follows⟩
  case lanes_length =>
    rw [after, post_lanes, List.length_set]
    exact ordered.lanes_length
  case entries_length =>
    rw [entries, (frame_of_workerStep? step).owner]
    exact ordered.entries_length
  case taken_length =>
    rw [taken, (frame_of_workerStep? step).sequencer]
    exact ordered.taken_length
  case follows =>
    intro j compressor found hcompressor hfound
    rw [entries, taken]
    rw [after, post_lanes] at hfound
    rcases getElem?_set_cases hfound with ⟨rfl, rfl⟩ | ⟨-, hold⟩
    · exact (ordered.follows j compressor lane hcompressor hlane).move move
    · exact ordered.follows j compressor found hcompressor hold

theorem ownerStep? (ordered : s.Ordered compressors h) (step : s.ownerStep? = some s') :
    s'.Ordered compressors (h ++ [⟨s, .step .owner, s'⟩]) := by
  have move := move_of_ownerStep? step
  obtain ⟨-, hsequencer, -, -⟩ := move.frame
  have taken : History.taken (h ++ [⟨s, .step .owner, s'⟩]) = h.taken :=
    History.taken_concat_of_none h rfl
  have htook : s'.sequencer.phase.Took s'.sequencer.index
      (History.taken (h ++ [⟨s, .step .owner, s'⟩])).length := by
    rw [taken, hsequencer]
    exact ordered.taken_length
  cases move.touches with
  | nothing lanes submitted =>
    have hentries := History.entries_of_submitted_eq h submitted
    refine ⟨?lanes_length, ?entries_length, htook, ?follows⟩
    case lanes_length =>
      rw [lanes]
      exact ordered.lanes_length
    case entries_length =>
      rw [hentries, submitted]
      exact ordered.entries_length
    case follows =>
      rw [hentries, taken, lanes]
      exact ordered.follows
  | detached i lane lane? lanes submitted =>
    have hentries := History.entries_of_submitted_eq h submitted
    refine ⟨?lanes_length, ?entries_length, htook, ?follows⟩
    case lanes_length =>
      rw [lanes, List.length_set]
      exact ordered.lanes_length
    case entries_length =>
      rw [hentries, submitted]
      exact ordered.entries_length
    case follows =>
      intro j compressor found hcompressor hfound
      rw [hentries, taken]
      rw [lanes] at hfound
      rcases getElem?_set_cases hfound with ⟨rfl, rfl⟩ | ⟨-, hold⟩
      · exact (ordered.follows j compressor lane hcompressor lane?).detachOwner
      · exact ordered.follows j compressor found hcompressor hold
  | sent entry lane submission? turn worker lanes submitted =>
    have hentries := History.entries_of_submitted_succ h submission? submitted
    -- the entry is of the lane it was sent to, as entry `h.entries.length`
    have hturn : h.entries.length % compressors.length = s.ownerTurn := by
      rw [ordered.entries_length, ← ordered.lanes_length, ownerTurn]
    refine ⟨?lanes_length, ?entries_length, htook, ?follows⟩
    case lanes_length =>
      rw [lanes, List.length_set]
      exact ordered.lanes_length
    case entries_length =>
      rw [hentries, submitted, List.length_append, ordered.entries_length]
      rfl
    case follows =>
      intro j compressor found hcompressor hfound
      rw [hentries, taken]
      rw [lanes] at hfound
      rcases getElem?_set_cases hfound with ⟨rfl, rfl⟩ | ⟨hne, hold⟩
      · rw [turns_append_of_eq hturn]
        exact (ordered.follows _ compressor lane hcompressor turn).give entry
      · rw [turns_append_of_ne (by omega)]
        exact ordered.follows j compressor found hcompressor hold

theorem took [Sink ω] (ordered : s.Ordered compressors h) (move : s.SequencerMove s') :
    s'.sequencer.phase.Took s'.sequencer.index
      (History.taken (h ++ [⟨s, .step .sequencer, s'⟩])).length := by
  have before := ordered.taken_length
  rw [History.taken_concat, List.length_append]
  cases move with
  | receive phase turn outbox =>
    rw [phase, SequencerPhase.Took] at before
    simp only [Moment.taken?, Option.toList_some, List.length_singleton, SequencerPhase.Took,
      before]
  | @start rendered phase going =>
    rw [phase, SequencerPhase.Took] at before
    cases rendered <;>
      simp only [beginWriting, Moment.taken?, Option.toList_none, List.length_nil,
        SequencerPhase.Took, before]
  | @finish thenFlush phase =>
    rw [phase, SequencerPhase.Took] at before
    cases thenFlush <;>
      simp [Moment.taken?, SequencerPhase.Took, before]
  | write phase | flush phase | interrupted phase =>
    rw [phase, SequencerPhase.Took] at before
    simp only [Moment.taken?, phase, Option.toList_none, List.length_nil, SequencerPhase.Took,
      before]
  | advance phase =>
    rw [phase, SequencerPhase.Took] at before
    simp only [Moment.taken?, Option.toList_none, List.length_nil, SequencerPhase.Took, before]
  | leave | fail | record | cancel | closeLane | exit => exact before.le

theorem sequencerStep? [Sink ω] (ordered : s.Ordered compressors h)
    (step : s.sequencerStep? = some s') :
    s'.Ordered compressors (h ++ [⟨s, .step .sequencer, s'⟩]) := by
  have move := move_of_sequencerStep? step
  obtain ⟨-, howner⟩ := move.frame
  have entries : History.entries (h ++ [⟨s, .step .sequencer, s'⟩]) = h.entries :=
    History.entries_concat_of_none h rfl
  have hlength : (History.entries (h ++ [⟨s, .step .sequencer, s'⟩])).length =
      s'.owner.submitted := by
    rw [entries, howner]
    exact ordered.entries_length
  have unmoved : (∀ rendered, s'.sequencer.phase ≠ .received rendered) →
      History.taken (h ++ [⟨s, .step .sequencer, s'⟩]) = h.taken := by
    intro hphase
    rw [History.taken_concat, Moment.taken?]
    split
    · next found => exact absurd found (hphase _)
    · exact List.append_nil _
  have htook := ordered.took move
  cases move.touches with
  | nothing lanes phase =>
    refine ⟨?lanes_length, hlength, htook, ?follows⟩
    case lanes_length =>
      rw [lanes]
      exact ordered.lanes_length
    case follows =>
      rw [entries, unmoved phase, lanes]
      exact ordered.follows
  | detached i lane lane? lanes phase =>
    refine ⟨?lanes_length, hlength, htook, ?follows⟩
    case lanes_length =>
      rw [lanes, List.length_set]
      exact ordered.lanes_length
    case follows =>
      intro j compressor found hcompressor hfound
      rw [entries, unmoved phase]
      rw [lanes] at hfound
      rcases getElem?_set_cases hfound with ⟨rfl, rfl⟩ | ⟨-, hold⟩
      · exact (ordered.follows j compressor lane hcompressor lane?).detachSequencer
      · exact ordered.follows j compressor found hcompressor hold
  | took lane rendered rest phase turn outbox lanes next =>
    have taken : History.taken (h ++ [⟨s, .step .sequencer, s'⟩]) = h.taken ++ [rendered] := by
      rw [History.taken_concat]
      simp only [Moment.taken?, next, Option.toList_some]
    have hcount := ordered.taken_length
    rw [phase, SequencerPhase.Took] at hcount
    -- the entry is of the lane it was taken from, as entry `h.taken.length`
    have hturn : h.taken.length % compressors.length = s.sequencerTurn := by
      rw [hcount, ← ordered.lanes_length, sequencerTurn]
    refine ⟨?lanes_length, hlength, htook, ?follows⟩
    case lanes_length =>
      rw [lanes, List.length_set]
      exact ordered.lanes_length
    case follows =>
      intro j compressor found hcompressor hfound
      rw [entries, taken]
      rw [lanes] at hfound
      rcases getElem?_set_cases hfound with ⟨rfl, rfl⟩ | ⟨hne, hold⟩
      · rw [turns_append_of_eq hturn]
        exact (ordered.follows _ compressor lane hcompressor turn).takeOut outbox
      · rw [turns_append_of_ne (by omega)]
        exact ordered.follows j compressor found hcompressor hold

theorem request (ordered : s.Ordered compressors h) (r : Request) :
    (s.request r).Ordered compressors (h ++ [⟨s, .request r, s.request r⟩]) := by
  have entries : History.entries (h ++ [⟨s, .request r, s.request r⟩]) = h.entries :=
    History.entries_concat_of_none h rfl
  have taken : History.taken (h ++ [⟨s, .request r, s.request r⟩]) = h.taken :=
    History.taken_concat_of_none h rfl
  obtain ⟨phase, after⟩ := request_frame s r
  refine ⟨?lanes_length, ?entries_length, ?taken_length, ?follows⟩
  case lanes_length =>
    rw [after]
    exact ordered.lanes_length
  case entries_length =>
    rw [entries, after]
    exact ordered.entries_length
  case taken_length =>
    rw [taken, after]
    exact ordered.taken_length
  case follows =>
    rw [entries, taken, after]
    exact ordered.follows

theorem lanes_ne_nil (ordered : s.Ordered compressors h) (nonempty : compressors ≠ []) :
    s.lanes ≠ [] := by
  intro empty
  have hlength := ordered.lanes_length
  rw [empty] at hlength
  exact nonempty (List.length_eq_zero_iff.1 hlength.symm)

/-- Entry `p` the sequencer takes is what the compressor of its lane makes of entry `p`. -/
theorem rendering_of_taken (ordered : s.Ordered compressors h) (nonempty : compressors ≠ [])
    {p : Nat} {made : Rendered} (taken : h.taken[p]? = some made) :
    rendering compressors h.entries p = some made := by
  have hn : 0 < compressors.length := List.length_pos_iff.2 nonempty
  have hturn := Nat.mod_lt p hn
  have hcompressor := List.getElem?_eq_getElem hturn
  have hlive : p % compressors.length < s.lanes.length := by
    rw [ordered.lanes_length]
    exact hturn
  have hlane := List.getElem?_eq_getElem hlive
  have hmade := getElem?_turns hn h.taken p
  rw [taken] at hmade
  have hround := (List.getElem?_eq_some_iff.1 hmade).1
  obtain ⟨last, hlast⟩ :=
    (ordered.follows _ _ _ hcompressor hlane).compressEntries_take (Nat.succ_le_of_lt hround)
  rw [rendering, hcompressor]
  simp only [hlast]
  rw [List.getElem?_take, if_pos (Nat.lt_succ_self _), hmade]

/-- The sequencer does not take more than was submitted. -/
theorem taken_length_le (ordered : s.Ordered compressors h)
    (nonempty : compressors ≠ []) : h.taken.length ≤ h.entries.length := by
  by_contra hlt
  have hlast := List.getElem?_eq_getElem (l := h.taken) (i := h.entries.length) (by omega)
  exact Nat.lt_irrefl _
    (lt_length_of_rendering (ordered.rendering_of_taken nonempty hlast))

/-- A mishap of a compressor is about a block that has been submitted, and of which nothing
    becomes. -/
theorem of_workerMishap (ordered : s.Ordered compressors h) {i : Nat} {mishap : Mishap}
    (mishap? : s.lanes[i]?.bind Lane.mishap? = some mishap) :
    ∃ p number data dictionary, mishap.number? = some number ∧
      h.entries[p]? = some (.block number data dictionary) ∧
      rendering compressors h.entries p = none := by
  obtain ⟨lane, hlane, hmishap⟩ := Option.bind_eq_some_iff.1 mishap?
  have hi : i < compressors.length := by
    rw [← ordered.lanes_length]
    exact (List.getElem?_eq_some_iff.1 hlane).1
  have hcompressor := List.getElem?_eq_getElem hi
  obtain ⟨done, later, made, now, number, data, dictionary, hgiven, hdone, fails, hnumber⟩ :=
    (ordered.follows i _ lane hcompressor hlane).of_mishap? hmishap
  obtain ⟨p, hp, hnone⟩ := rendering_eq_none hcompressor hgiven hdone fails
  exact ⟨p, number, data, dictionary, hnumber, hp, hnone⟩

end Ordered

/-- Every run of a new writer keeps the order. -/
theorem Run.ordered [Sink ω] {settings : Settings} {sink : ω}
    (run : Run (Pipeline.new settings compressors sink) h s) : s.Ordered compressors h := by
  induction run with
  | start => exact .new settings compressors sink
  | @step _ _ _ party _ step ih =>
    cases party with
    | owner => exact ih.ownerStep? step
    | worker i => exact ih.workerStep? step
    | sequencer => exact ih.sequencerStep? step
  | request r _ _ ih => exact ih.request r

/-- What goes wrong with a compressor during a run goes wrong on a block that has been submitted,
    and of which nothing becomes. -/
theorem Run.of_workerMishap [Sink ω] {settings : Settings} {sink : ω}
    (run : Run (Pipeline.new settings compressors sink) h s) {m : Moment κ ω} (hm : m ∈ h)
    {mishap : Mishap} {number : Nat} (mishap? : m.mishap? = some mishap)
    (number? : mishap.number? = some number) :
    ∃ p data dictionary, h.entries[p]? = some (.block number data dictionary) ∧
      rendering compressors h.entries p = none := by
  obtain ⟨h₁, h₂, rfl⟩ := List.append_of_mem hm
  have before := run.split.1.ordered
  unfold Moment.mishap? at mishap?
  split at mishap?
  · obtain ⟨p, number', data, dictionary, hnumber, hp, hnone⟩ := before.of_workerMishap mishap?
    rw [number?, Option.some.injEq] at hnumber
    subst hnumber
    have hlt := (List.getElem?_eq_some_iff.1 hp).1
    rw [History.entries_append]
    refine ⟨p, data, dictionary, ?_, ?_⟩
    · rw [List.getElem?_append_left hlt]
      exact hp
    · rw [rendering_append _ hlt]
      exact hnone
  · rw [number?_of_sinkMishap? mishap?] at number?
    cases number?
  · cases mishap?

end Pipeline

end ParallelGzip
