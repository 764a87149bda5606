import Mathlib.Data.List.TakeWhile
import ParallelGzip.Proofs.Members
import ParallelGzip.Proofs.Reader.Closing

set_option autoImplicit false

/-! # Endless: why closing takes an end of the input

There is an end to what a source delivers (`Source.supply`); that closing a reader always works rests
on it. A source without an end can still be watched until it has delivered as much as one likes: a
request for more shows as a panic. If it delivers nothing but padding behind a member, then the
worker looks there for the next member and not at whether it has been told to stop, and however much
is watched, whoever waits for the worker is answered only after all of it has been used up. -/

namespace ParallelGzip

/-! ## Sources that are watched -/

namespace ScriptedSource

/-- A source without faults of which all that is left is watched: a request for more panics. -/
structure Watched (s : ScriptedSource) : Prop where
  whole : s.chunk = 0
  uninterrupted : s.interrupt = 0
  unfailing : s.failure = none
  limit : s.panicAt = some (s.position + s.data.length)

/-- It serves what is asked for as long as there is something left. -/
theorem Watched.read {s : ScriptedSource} (watched : s.Watched) (n : Nat) :
    (s.data = [] ∧ ∃ s', Source.read s n = (.panicked, s')) ∨
      ∃ s', Source.read s n = (.delivered (s.data.take n), s') ∧ s.data ≠ [] ∧
        s.data.take n ++ s'.data = s.data ∧ s'.Watched := by
  obtain ⟨data, chunk, interrupt, failure, panicAt, position, requests⟩ := s
  obtain ⟨whole, uninterrupted, unfailing, limit⟩ := watched
  dsimp only at whole uninterrupted unfailing limit
  subst whole uninterrupted unfailing limit
  dsimp only
  by_cases none : data = []
  · subst none
    exact .inl ⟨rfl, _, if_pos (Nat.le_refl position)⟩
  · have left : 0 < data.length := List.length_pos_iff.2 none
    have unused : ¬position + data.length ≤ position := by omega
    let asked : ScriptedSource :=
      { data, panicAt := some (position + data.length), position, requests := requests + 1 }
    have answer : ScriptedSource.read
        { data, panicAt := some (position + data.length), position, requests } n =
          asked.serve (min n (position + data.length - position)) := if_neg unused
    rw [Nat.add_sub_cancel_left, serve] at answer
    have all : data.take (min n data.length) = data.take n := by
      rw [List.take_eq_take_iff]
      omega
    refine .inr ⟨_, answer.trans (Prod.ext (congrArg ReadResult.delivered all) rfl), none, ?_,
      rfl, rfl, rfl, ?_⟩
    · exact (congrArg (· ++ _) all.symm).trans (List.take_append_drop _ _)
    · show some (position + data.length) = some (position + (data.take (min n data.length)).length +
        (data.drop (min n data.length)).length)
      rw [List.length_drop, List.length_take, Option.some.injEq]
      omega

end ScriptedSource

namespace Buffered

variable {b : Buffered ScriptedSource}

/-- A buffer with room in front of a watched source is filled as long as there is something left. -/
theorem fillBuffer_of_watched (watched : b.source.Watched) (room : 0 < b.capacity) :
    (b.buffer ++ b.source.data = [] ∧ ∃ b', b.fillBuffer = (.panicked, b')) ∨
      ∃ b', b.fillBuffer = (.delivered b'.buffer, b') ∧ b'.buffer ≠ [] ∧
        b'.buffer ++ b'.source.data = b.buffer ++ b.source.data ∧ b'.source.Watched ∧
        b'.capacity = b.capacity := by
  by_cases empty : b.buffer = []
  · rw [fillBuffer, refill, if_pos empty, empty, List.nil_append]
    rcases watched.read b.capacity with ⟨none, s', answer⟩ | ⟨s', answer, some, split, watched'⟩
    · rw [answer]
      exact .inl ⟨none, _, rfl⟩
    · rw [answer]
      refine .inr ⟨{ b with source := s', buffer := _ }, rfl, ?_, split, watched', rfl⟩
      rw [ne_eq, List.take_eq_nil_iff]
      exact not_or.2 ⟨Nat.ne_of_gt room, some⟩
  · exact .inr ⟨b, fillBuffer_of_ne_nil empty, empty, rfl, watched, rfl⟩

/-- Looking for a member where there is only padding uses up all that is watched. -/
theorem skipPadding_of_watched (watched : b.source.Watched) (room : 0 < b.capacity)
    (padding : ∀ c ∈ b.buffer ++ b.source.data, c = 0) : (skipPadding b).1 = .panicked := by
  -- what is left to be read becomes less with every turn
  induction turns : b.supply using Nat.strongRecOn generalizing b with
  | ind supply ih =>
    rw [skipPadding_eq]
    rcases fillBuffer_of_watched watched room with
      ⟨-, b', filled⟩ | ⟨b', filled, some, split, watched', capacity⟩
    · rw [filled]
    · have fetched := supply_consume_refill
        (show b.refill b.capacity = (.delivered b'.buffer, b') from filled) _ (Nat.le_refl _)
      rw [filled]
      rcases front : b'.buffer with _ | ⟨c, bytes⟩
      · exact absurd front some
      rw [front] at fetched
      have nulls : ∀ d ∈ c :: bytes, decide (d = 0) = true := by
        intro d hd
        refine decide_eq_true (padding d ?_)
        rw [← split, front]
        exact List.mem_append_left _ hd
      dsimp only
      rw [List.takeWhile_eq_self_iff.2 nulls, if_neg (Nat.lt_irrefl _)]
      refine ih _ ?_ watched' (capacity ▸ room) ?_ rfl
      · rw [List.length_cons] at fetched ⊢
        omega
      · intro d hd
        rw [consume, front, List.drop_length, List.nil_append] at hd
        exact padding d (split ▸ List.mem_append_right _ hd)

end Buffered

/-! ## Padding behind a member -/

/-- A decoder asks for all that is watched if there is nothing but padding behind a member without
    payload. -/
theorem Members.read_of_watched {s : ScriptedSource} {member padding : Bytes} {capacity n : Nat}
    (watched : s.Watched) (data : s.data = member ++ padding) (isMember : IsMember member [])
    (nulls : ∀ c ∈ padding, c = 0) (room : member.length ≤ capacity) (pos : 0 < n) :
    (Source.read (Members.new ⟨s, capacity, []⟩) n).1 = .panicked := by
  obtain ⟨more, begins⟩ := isMember.exists_cons
  have some : 0 < member.length := by
    rw [begins]
    exact Nat.succ_pos _
  obtain ⟨front, s', fetched, split, watched'⟩ : ∃ front s',
      Source.read s capacity = (.delivered (member ++ front), s') ∧
        front ++ s'.data = padding ∧ s'.Watched := by
    rcases watched.read capacity with ⟨none, -⟩ | ⟨s', answer, -, split, watched'⟩
    · rw [none] at data
      rw [(List.append_eq_nil_iff.1 data.symm).1] at begins
      cases begins
    · rw [data, List.take_append, List.take_of_length_le room] at answer split
      rw [List.append_assoc] at split
      exact ⟨_, s', answer, List.append_cancel_left split, watched'⟩
  let held : Buffered ScriptedSource := ⟨s', capacity, member ++ front⟩
  have filled : (⟨s, capacity, []⟩ : Buffered ScriptedSource).fillBuffer =
      (.delivered (member ++ front), held) := by
    rw [Buffered.fillBuffer, Buffered.refill, if_pos rfl, fetched]
  have search : findMember (⟨s, capacity, []⟩ : Buffered ScriptedSource) 0 = (.found, held) := by
    rw [findMember, if_pos rfl, filled, begins]
    rfl
  have opens : openMember held n = .ended { held with buffer := front } := by
    obtain ⟨rest, completes, opens⟩ := openMember_of_isMember (b := held) isMember rfl n
    rcases readBody_of_completes (b := { held with buffer := rest }) completes pos with
      ⟨-, body⟩ | ⟨z, rest', chunk, later, some, none, -⟩
    · exact opens.trans body
    · exact absurd (List.append_eq_nil_iff.1 none.symm).1 some
  have panics : (findMember { held with buffer := front } 1).1 = .panicked := by
    rw [findMember, if_neg Nat.one_ne_zero]
    exact Buffered.skipPadding_of_watched watched' (Nat.lt_of_lt_of_le some room)
      fun c hc => nulls c (split ▸ hc)
  have answer : Source.read (Members.new ⟨s, capacity, []⟩) n =
      Members.readNext ⟨s, capacity, []⟩ 0 n := if_neg (Nat.ne_of_gt pos)
  rw [answer, Members.readNext_eq, search]
  dsimp only
  rw [opens]
  dsimp only
  rw [Members.readNext_eq]
  rcases found : findMember { held with buffer := front } 1 with ⟨result, b⟩
  rw [found] at panics
  cases panics
  rfl

/-! ## Whoever waits for the worker -/

namespace Reader

variable {σ : Type} [Source σ] {failure : Error} {r r' : Reader σ}

/-- A call waits for a worker that has nothing for it and is going to leave this failure. -/
structure AwaitsFailure (failure : Error) (r : Reader σ) : Prop where
  caller : r.caller = .filling ∨ r.caller = .joining
  queue : r.queue = []
  slot : r.failure = none
  worker : (r.worker = .decoding ∧ ∀ chunk ending decoder,
      Source.readChunk r.decoder r.chunkSize #[] = (chunk, ending, decoder) →
        afterDecoding chunk ending = .recording failure) ∨
    r.worker = .recording failure

/-- It goes on waiting until the failure has been left. -/
theorem AwaitsFailure.step {party : Party} (awaits : r.AwaitsFailure failure)
    (step : r.step? party = some r') : r'.AwaitsFailure failure ∨ r'.failure = some failure := by
  obtain ⟨caller, queue, slot, worker⟩ := awaits
  cases party with
  | worker =>
    cases move_of_workerStep? step with
    | decode phase result =>
      rcases worker with ⟨-, comes⟩ | recording
      · exact .inl ⟨caller, queue, slot, .inr (comes _ _ _ result)⟩
      · cases phase.symm.trans recording
    | @record found phase =>
      rcases worker with ⟨decoding, -⟩ | recording
      · cases decoding.symm.trans phase
      · cases phase.symm.trans recording
        refine .inr ?_
        dsimp only
        rw [slot]
        rfl
    | check phase | abandon phase | send phase | exit phase =>
      rcases worker with ⟨decoding, -⟩ | recording
      · cases decoding.symm.trans phase
      · cases recording.symm.trans phase
  | caller =>
    have present : r.worker ≠ .exited := by
      rintro exited
      rcases worker with ⟨decoding, -⟩ | recording
      · cases decoding.symm.trans exited
      · cases recording.symm.trans exited
    cases move_of_callerStep? step with
    | take _ queue? => cases queue.symm.trans queue?
    | finish _ _ exited => exact absurd exited present
    | join _ exited => exact absurd exited present
    | stop phase | detach phase =>
      rcases caller with filling | joining
      · cases filling.symm.trans phase
      · cases joining.symm.trans phase

/-- A failure that has been left stays. -/
theorem failure_of_step {party : Party} (left : r.failure = some failure)
    (step : r.step? party = some r') : r'.failure = some failure := by
  cases party with
  | worker =>
    cases move_of_workerStep? step with
    | record =>
      dsimp only
      rw [left]
      rfl
    | _ => exact left
  | caller => cases move_of_callerStep? step <;> exact left

end Reader

namespace Usage

variable {σ : Type} [Source σ] {failure : Error} {u u' : Usage σ}

omit [Source σ] in
theorem reader_moved (u : Usage σ) (r : Reader σ) : (u.moved r).reader = r := by
  unfold moved
  split <;> rfl

/-- As long as a call waits for the worker, nothing else is asked for. -/
theorem Step.of_awaits (step : Step u u') (awaits : u.reader.AwaitsFailure failure) :
    u'.reader.AwaitsFailure failure ∨ u'.reader.failure = some failure := by
  cases step with
  | worker step => exact awaits.step step
  | caller step =>
    rw [reader_moved]
    exact awaits.step step
  | fill ready | consume _ ready | close ready =>
    rcases awaits.caller with filling | joining
    · cases filling.symm.trans ready
    · cases joining.symm.trans ready

theorem Step.failure_eq (step : Step u u') (left : u.reader.failure = some failure) :
    u'.reader.failure = some failure := by
  cases step with
  | worker step => exact Reader.failure_of_step left step
  | caller step =>
    rw [reader_moved]
    exact Reader.failure_of_step left step
  | fill | consume | close => exact left

/-- A call that waits for the worker has not returned before the failure has been left. -/
theorem failure_of_returned {result : Except Error Unit} (awaits : u.reader.AwaitsFailure failure)
    (reached : Relation.ReflTransGen Step u u') (returned : u'.reader.caller = .ready result) :
    u'.reader.failure = some failure := by
  have waits : u'.reader.AwaitsFailure failure ∨ u'.reader.failure = some failure := by
    clear returned
    induction reached with
    | refl => exact .inl awaits
    | tail _ step ih => exact ih.elim step.of_awaits fun left => .inr (step.failure_eq left)
  rcases waits with ⟨filling | joining, -⟩ | left
  · cases filling.symm.trans returned
  · cases joining.symm.trans returned
  · exact left

end Usage

/-! ## A source without an end -/

/-- A member without payload. -/
def emptyMember : Bytes := Frame.header defaultLevel ++ Frame.memberEnd (crc32 [] 0) 0 none

theorem isMember_emptyMember : IsMember emptyMember [] :=
  isMember_of_header (Deflate.Inflates.nil #[]) defaultLevel

/-- A member without payload and NUL bytes without end behind it, of which so many are watched: a
    request for more panics. -/
def ScriptedSource.endless (watched : Nat) : ScriptedSource where
  data := emptyMember ++ List.replicate watched 0
  panicAt := some (emptyMember.length + watched)

theorem ScriptedSource.watched_endless (watched : Nat) : (endless watched).Watched :=
  ⟨rfl, rfl, rfl, by simp [endless]⟩

namespace Reader

/-- What a worker leaves in the slot that has asked for more than is watched. -/
def exhausted : Error := .thread "decompress worker panicked"

/-- The first chunk that a worker decodes takes more than is watched. -/
theorem afterDecoding_endless {watched n : Nat} (pos : 0 < n) {chunk : Array UInt8}
    {ending : Ending} {decoder : Members ScriptedSource}
    (result : Source.readChunk (Members.new ⟨.endless watched, inputCapacity, []⟩) n #[] =
      (chunk, ending, decoder)) : afterDecoding chunk ending = .recording exhausted := by
  have panics := Members.read_of_watched (ScriptedSource.watched_endless watched) rfl
    isMember_emptyMember (fun c hc => List.eq_of_mem_replicate hc)
    (show emptyMember.length ≤ inputCapacity by decide) pos
  rcases answer : Source.read (Members.new ⟨ScriptedSource.endless watched, inputCapacity, []⟩) n
    with ⟨found, m⟩
  rw [answer] at panics
  cases panics
  rw [Source.readChunk, if_neg (Nat.ne_of_gt pos)] at result
  split at result <;> rename_i told <;> cases answer.symm.trans told
  cases result
  rfl

/-- A call is running, and whatever happens from here on, it has not returned before the worker has
    asked for more than is watched. -/
structure OutlastsWatch (u : Usage ScriptedSource) : Prop where
  running : ∀ result, u.reader.caller ≠ .ready result
  unused : u.reader.failure = none
  usedUp : ∀ u' result, Relation.ReflTransGen Usage.Step u u' → u'.reader.caller = .ready result →
    u'.reader.failure = some exhausted

theorem AwaitsFailure.outlastsWatch {u : Usage ScriptedSource}
    (awaits : u.reader.AwaitsFailure exhausted) : OutlastsWatch u where
  running := by
    intro result ready
    rcases awaits.caller with filling | joining
    · cases filling.symm.trans ready
    · cases joining.symm.trans ready
  unused := awaits.slot
  usedUp := fun _ _ => Usage.failure_of_returned awaits

/-- What closing a reader does not come back from. Behind a member there are NUL bytes without end,
    and a call to close waits for a worker that reads them: however many of them are watched, it has
    not returned before the worker has asked for more. The same goes for a call to read. And a reader
    whose queue is more than can be asked for panics when it is opened, so that there is nothing to
    close. -/
theorem closing_never_ends :
    (∀ watched, ∃ (r : Reader ScriptedSource) (closing reading : Usage ScriptedSource),
      Reader.open (.endless watched) {} = .done r ∧
      Relation.ReflTransGen Usage.Step (Usage.start r) closing ∧
      closing.reader.closed = true ∧ OutlastsWatch closing ∧
      Relation.ReflTransGen Usage.Step (Usage.start r) reading ∧
      reading.reader.closed = false ∧ OutlastsWatch reading) ∧
    ({ queueSize := 0x4000000000000000 } : ReaderOptions).validate = .ok () ∧
      Reader.open (ScriptedSource.endless 0) { queueSize := 0x4000000000000000 } = .panicked := by
  refine ⟨?_, rfl, rfl⟩
  intro watched
  let r : Reader ScriptedSource := .new (.endless watched) defaultBlockSize 2
  have fresh : Relation.ReflTransGen Usage.Step (Usage.start r) (Usage.start r) := .refl
  have looked := fresh.tail (.worker rfl)
  have comes : ∀ chunk ending decoder, Source.readChunk r.decoder r.chunkSize #[] =
      (chunk, ending, decoder) → afterDecoding chunk ending = .recording exhausted :=
    fun _ _ _ => afterDecoding_endless (show 0 < defaultBlockSize by decide)
  have closing := ((looked.tail (.close rfl rfl)).tail (.caller rfl)).tail (.caller rfl)
  have reading := looked.tail (.fill rfl rfl (Nat.le_refl 0))
  exact ⟨r, _, _, rfl, closing, rfl, AwaitsFailure.outlastsWatch
    ⟨.inr rfl, rfl, rfl, .inl ⟨rfl, comes⟩⟩, reading, rfl, AwaitsFailure.outlastsWatch
    ⟨.inl rfl, rfl, rfl, .inl ⟨rfl, comes⟩⟩⟩

end Reader

end ParallelGzip
