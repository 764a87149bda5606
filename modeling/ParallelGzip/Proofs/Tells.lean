import ParallelGzip.Proofs.Faults
import ParallelGzip.Proofs.Reader.Session
import ParallelGzip.Proofs.Verdict

set_option autoImplicit false

/-! # Tells: sources with a payload and an end to tell

A decoder is a source whose end is news: the stream was whole, or it failed, and why. `Source.Tells`
says which payload a source still hands over and what it tells behind it, whatever the requests.
The way of a payload through a program is then a matter of one lemma for each thing on the way: a
decoder tells its verdict (`Members.tells`), a buffer in front of a source tells what the source
does (`Tells.buffered`), and a caller that reads on, in requests of any sizes or chunk by chunk,
comes to what is told. -/

namespace ParallelGzip

/-- How reading stops that comes to this failure or to none. -/
def Ending.behind : Option IoError → Ending
  | none => .ended
  | some cause => .failed cause

theorem Ending.failure?_behind (failure? : Option IoError) :
    (Ending.behind failure?).failure? = failure?.map Error.ofDecoder := by
  cases failure? <;> rfl

namespace Source

/-! ## What is told -/

/-- What may be the answer to a request for `n` bytes by a source that still has `payload` to hand
    over and then this failure or the end, and that interrupts so many requests at most; `keeps`
    tells what it has left. Damaged data can cost some of the payload. -/
inductive Replies {σ : Type} (keeps : σ → Bytes → Nat → Prop) (failure? : Option IoError) (n : Nat) :
    Bytes → Nat → ReadResult × σ → Prop
  | piece {s : σ} {bytes later : Bytes} {refusals refusals' : Nat} (some : bytes ≠ [])
      (fewer : refusals' ≤ refusals) (next : keeps s later refusals') :
      Replies keeps failure? n (bytes ++ later) refusals (.delivered bytes, s)
  | nothing {s : σ} {payload : Bytes} {refusals refusals' : Nat} (zero : n = 0)
      (fewer : refusals' ≤ refusals) (next : keeps s payload refusals') :
      Replies keeps failure? n payload refusals (.delivered [], s)
  | interrupted {s : σ} {payload : Bytes} {refusals refusals' : Nat} {cause : IoError}
      (fewer : refusals' < refusals) (next : keeps s payload refusals') :
      Replies keeps failure? n payload refusals (.interrupted cause, s)
  | ended {s : σ} {refusals refusals' : Nat} (ends : failure? = none)
      (fewer : refusals' ≤ refusals) (next : keeps s [] refusals') :
      Replies keeps failure? n [] refusals (.delivered [], s)
  | failed {s : σ} {payload : Bytes} {refusals : Nat} {cause : IoError}
      (fails : failure? = some cause) (complete : cause ≠ corruptBody → payload = []) :
      Replies keeps failure? n payload refusals (.failed cause, s)

variable {σ : Type} [Source σ]

/-- The source hands over `payload`, in pieces of any sizes, and tells this failure or the end
    behind it; it interrupts so many requests at most. -/
def Tells (s : σ) (payload : Bytes) (failure? : Option IoError) (refusals : Nat) : Prop :=
  ∃ keeps : σ → Bytes → Nat → Prop,
    (∀ s payload refusals n, keeps s payload refusals →
      Replies keeps failure? n payload refusals (Source.read s n)) ∧
    keeps s payload refusals

variable {s : σ} {payload : Bytes} {failure? : Option IoError} {refusals n : Nat}

omit [Source σ] in
theorem Replies.mono {keeps keeps' : σ → Bytes → Nat → Prop} {answer : ReadResult × σ}
    (replies : Replies keeps failure? n payload refusals answer)
    (weaker : ∀ s payload refusals, keeps s payload refusals → keeps' s payload refusals) :
    Replies keeps' failure? n payload refusals answer := by
  cases replies with
  | piece some fewer next => exact .piece some fewer (weaker _ _ _ next)
  | nothing zero fewer next => exact .nothing zero fewer (weaker _ _ _ next)
  | interrupted fewer next => exact .interrupted fewer (weaker _ _ _ next)
  | ended ends fewer next => exact .ended ends fewer (weaker _ _ _ next)
  | failed fails complete => exact .failed fails complete

theorem Tells.read (tells : Tells s payload failure? refusals) (n : Nat) :
    Replies (Tells · · failure? ·) failure? n payload refusals (Source.read s n) := by
  obtain ⟨keeps, replies, kept⟩ := tells
  refine (replies s payload refusals n kept).mono ?_
  intro s payload refusals kept
  exact ⟨keeps, replies, kept⟩

theorem Tells.answered {answer : ReadResult × σ} (tells : Tells s payload failure? refusals)
    (answered : Source.read s n = answer) :
    Replies (Tells · · failure? ·) failure? n payload refusals answer := answered ▸ tells.read n

/-! ## Reading on -/

/-- A caller that has read these bytes, and how it stopped, has come to what was told. -/
structure Comes (payload : Bytes) (failure? : Option IoError) (read : Bytes) (stop : Ending) :
    Prop where
  stop : stop = .behind failure?
  front : read <+: payload
  /-- Only damaged data can cost some of the payload. -/
  complete : failure? ≠ some corruptBody → read = payload

theorem Comes.behind {read chunk : Bytes} {stop : Ending}
    (comes : Comes payload failure? read stop) :
    Comes (chunk ++ payload) failure? (chunk ++ read) stop where
  stop := comes.stop
  front := (List.prefix_append_right_inj chunk).2 comes.front
  complete := fun sound => congrArg (chunk ++ ·) (comes.complete sound)

theorem Comes.ended : Comes [] none [] .ended := ⟨rfl, List.nil_prefix, fun _ => rfl⟩

theorem Comes.failed {cause : IoError} (complete : cause ≠ corruptBody → payload = []) :
    Comes payload (some cause) [] (.failed cause) :=
  ⟨rfl, List.nil_prefix, fun sound => (complete fun same => sound (congrArg some same)).symm⟩

/-- Make requests of these sizes, one after the other, up to the end or to a failure. A request that
    was interrupted is made again with the next size; only a request for something can find the end.
    The result is what has been delivered, how it stopped if it did, and the source. -/
def readOn (s : σ) : (sizes : List Nat) → Bytes × Option Ending × σ
  | [] => ([], none, s)
  | n :: sizes =>
    match Source.read s n with
    | (.delivered bytes, s') =>
      if bytes = [] ∧ n ≠ 0 then ([], some .ended, s')
      else
        let (later, stop, last) := readOn s' sizes
        (bytes ++ later, stop, last)
    | (.interrupted _, s') => readOn s' sizes
    | (.failed cause, s') => ([], some (.failed cause), s')
    | (.panicked, s') => ([], some .panicked, s')

/-- Whatever the sizes of its requests, a caller that reads on comes to this payload and this failure
    or the end behind it, and it stops if more than so many of the requests are for something. -/
def ReadsOut (s : σ) (payload : Bytes) (failure? : Option IoError) (most : Nat) : Prop :=
  ∀ sizes : List Nat,
    (∃ stop, (readOn s sizes).2.1 = some stop ∧ Comes payload failure? (readOn s sizes).1 stop) ∨
      ((readOn s sizes).2.1 = none ∧ (readOn s sizes).1 <+: payload ∧
        sizes.countP (0 < ·) ≤ most)

/-- Enough requests for something come to all of what is told. -/
theorem ReadsOut.readOn_eq {most : Nat} (reads : ReadsOut s payload failure? most) {sizes : List Nat}
    (enough : most < sizes.countP (0 < ·)) (sound : failure? ≠ some corruptBody) :
    readOn s sizes = (payload, some (.behind failure?), (readOn s sizes).2.2) := by
  obtain ⟨stop, stopped, comes⟩ | ⟨-, -, few⟩ := reads sizes
  · exact Prod.ext (comes.complete sound)
      (Prod.ext (stopped.trans (congrArg some comes.stop)) rfl)
  · exact absurd few (Nat.not_le.2 enough)

/-- Requests of any sizes come to what is told: each request for something delivers at least a byte,
    or uses up an interruption, or stops. -/
theorem Tells.readsOut (tells : Tells s payload failure? refusals) :
    ReadsOut s payload failure? (payload.length + refusals) := by
  intro sizes
  induction sizes generalizing s payload refusals with
  | nil => exact .inr ⟨rfl, List.nil_prefix, Nat.zero_le _⟩
  | cons n sizes ih =>
    have replies := tells.read n
    have count : (n :: sizes).countP (0 < ·) ≤ sizes.countP (0 < ·) + 1 := by
      rw [List.countP_cons]
      split <;> omega
    rw [Source.readOn]
    generalize Source.read s n = answer at replies ⊢
    cases replies with
    | @piece s' bytes later refusals refusals' some fewer next =>
      have nonempty := List.length_pos_iff.2 some
      dsimp only
      rw [if_neg (fun none => some none.1)]
      rcases ih next with ⟨stop, stopped, comes⟩ | ⟨going, front, few⟩
      · exact .inl ⟨stop, stopped, comes.behind⟩
      · refine .inr ⟨going, (List.prefix_append_right_inj bytes).2 front, ?_⟩
        rw [List.length_append]
        omega
    | @nothing s' payload refusals refusals' zero fewer next =>
      subst zero
      dsimp only
      rw [if_neg (fun none => none.2 rfl)]
      rcases ih next with ⟨stop, stopped, comes⟩ | ⟨going, front, few⟩
      · exact .inl ⟨stop, stopped, comes⟩
      · refine .inr ⟨going, front, ?_⟩
        rw [List.countP_cons_of_neg (by decide)]
        omega
    | interrupted fewer next =>
      rcases ih next with ⟨stop, stopped, comes⟩ | ⟨going, front, few⟩
      · exact .inl ⟨stop, stopped, comes⟩
      · exact .inr ⟨going, front, by omega⟩
    | @ended s' refusals refusals' ends fewer next =>
      subst ends
      dsimp only
      by_cases zero : n = 0
      · subst zero
        rw [if_neg (fun none => none.2 rfl)]
        rcases ih next with ⟨stop, stopped, comes⟩ | ⟨going, front, few⟩
        · exact .inl ⟨stop, stopped, comes⟩
        · refine .inr ⟨going, front, ?_⟩
          rw [List.countP_cons_of_neg (by decide)]
          omega
      · rw [if_pos ⟨rfl, zero⟩]
        exact .inl ⟨_, rfl, .ended⟩
    | failed fails complete =>
      subst fails
      exact .inl ⟨_, rfl, .failed complete⟩

/-! ## Chunk by chunk -/

/-- What reading a chunk comes to: the front of what is told, or all of it. -/
inductive Chunked (payload : Bytes) (failure? : Option IoError) (refusals n : Nat)
    (acc : Array UInt8) : Array UInt8 × Ending × σ → Prop
  | piece {s : σ} {bytes later : Bytes} {refusals' : Nat} (split : payload = bytes ++ later)
      (full : bytes = [] → n = 0 ∨ (later = [] ∧ failure? = none)) (fewer : refusals' ≤ refusals)
      (next : Tells s later failure? refusals') :
      Chunked payload failure? refusals n acc (acc ++ bytes, .ended, s)
  | failed {s : σ} {bytes : Bytes} {cause : IoError} (fails : failure? = some cause)
      (comes : Comes payload failure? bytes (.failed cause)) :
      Chunked payload failure? refusals n acc (acc ++ bytes, .failed cause, s)

theorem Tells.readChunk (tells : Tells s payload failure? refusals) (n : Nat)
    (acc : Array UInt8) : Chunked payload failure? refusals n acc (Source.readChunk s n acc) := by
  have none : ∀ acc : Array UInt8, acc = acc ++ ([] : Bytes) := fun acc =>
    Array.appendList_nil.symm
  fun_induction Source.readChunk s n acc generalizing payload refusals with
  | case1 s acc =>
    rw [none acc]
    exact .piece rfl (fun _ => .inl rfl) (Nat.le_refl _) tells
  | case2 s n acc pos s' answer =>
    rw [none acc]
    cases tells.answered answer with
    | piece some => exact absurd rfl some
    | nothing zero => exact absurd zero pos
    | ended ends fewer next => exact .piece rfl (fun _ => .inr ⟨rfl, ends⟩) fewer next
  | case3 s n acc pos b bytes s' answer ih =>
    cases tells.answered answer with
    | @piece _ _ later _ refusals' some fewer next =>
      have chunked := ih next
      have joined : ∀ more : Bytes, acc ++ (b :: bytes) ++ more = acc ++ ((b :: bytes) ++ more) :=
        fun more => Array.toList_inj.1 (by simp)
      generalize Source.readChunk s' _ _ = result at chunked ⊢
      cases chunked with
      | @piece s'' more rest refusals'' split full fewer' next' =>
        rw [joined, split, ← List.append_assoc]
        exact .piece rfl (fun none => by cases none) (Nat.le_trans fewer' fewer) next'
      | failed fails comes =>
        rw [joined]
        exact .failed fails comes.behind
  | case4 s n acc pos cause s' answer ih =>
    cases tells.answered answer with
    | interrupted fewer next =>
      have chunked := ih next
      generalize Source.readChunk s' _ _ = result at chunked ⊢
      cases chunked with
      | piece split full fewer' next' =>
        exact .piece split full (Nat.le_trans fewer' (Nat.le_of_lt fewer)) next'
      | failed fails comes => exact .failed fails comes
  | case5 s n acc pos cause s' answer =>
    rw [none acc]
    cases tells.answered answer with
    | failed fails complete =>
      refine .failed fails ?_
      rw [fails]
      exact .failed complete
  | case6 s n acc pos s' answer =>
    cases tells.answered answer

/-- Chunk by chunk a caller comes to what is told. -/
theorem Tells.readChunks (tells : Tells s payload failure? refusals) (pos : 0 < n) :
    Comes payload failure? (Source.readChunks s n).1.flatten (Source.readChunks s n).2 := by
  have toList : ∀ bytes : Bytes, ((#[] : Array UInt8) ++ bytes).toList = bytes := fun bytes => by
    simp
  fun_induction Source.readChunks s n generalizing payload refusals with
  | case1 s chunk s' result empty =>
    have chunked := tells.readChunk n #[]
    rw [result] at chunked
    cases chunked with
    | @piece _ bytes later _ split full fewer next =>
      have none : bytes = [] := by
        rw [← toList bytes, Array.toList_eq_nil_iff]
        exact Array.eq_empty_of_size_eq_zero empty
      obtain zero | ⟨rfl, rfl⟩ := full none
      · exact absurd zero (Nat.ne_of_gt pos)
      · rw [split, none]
        exact .ended
  | case2 s chunk s' result some chunks ending later ih =>
    have chunked := tells.readChunk n #[]
    rw [result] at chunked
    cases chunked with
    | piece split full fewer next =>
      have comes := ih next
      rw [later] at comes
      rw [List.flatten_cons, toList, split]
      exact comes.behind
  | case3 s chunk cause s' result =>
    have chunked := tells.readChunk n #[]
    rw [result] at chunked
    cases chunked with
    | @failed _ bytes _ fails comes =>
      have whole : (if ((#[] : Array UInt8) ++ bytes).size = 0 then []
          else [((#[] : Array UInt8) ++ bytes).toList]).flatten = bytes := by
        split
        · next empty =>
          rw [← toList bytes, Array.eq_empty_of_size_eq_zero empty]
          rfl
        · rw [List.flatten_singleton, toList]
      rw [whole]
      exact comes
  | case4 s chunk s' result =>
    have chunked := tells.readChunk n #[]
    rw [result] at chunked
    cases chunked

end Source

/-! ## Buffers -/

namespace Buffered

variable {σ : Type} [Source σ] {s : σ} {payload : Bytes} {failure? : Option IoError}
  {refusals capacity : Nat}

/-- What a buffer hands over: what is in it, and then what its source does. -/
def Keeps (failure? : Option IoError) (b : Buffered σ) (payload : Bytes) (refusals : Nat) : Prop :=
  0 < b.capacity ∧ ∃ later, payload = b.buffer ++ later ∧
    Source.Tells b.source later failure? refusals

/-- What is in the buffer is handed over as far as a request goes. -/
theorem replies_take {bytes later : Bytes} {refusals' : Nat} (room : 0 < capacity)
    (some : bytes ≠ []) (fewer : refusals' ≤ refusals)
    (next : Source.Tells s later failure? refusals') (n : Nat) :
    Source.Replies (Keeps failure?) failure? n (bytes ++ later) refusals
      (.delivered (bytes.take n), ⟨s, capacity, bytes.drop (bytes.take n).length⟩) := by
  by_cases zero : n = 0
  · subst zero
    exact .nothing rfl fewer ⟨room, later, rfl, next⟩
  · have front : bytes.take n ≠ [] := by
      rw [Ne, List.take_eq_nil_iff]
      exact not_or.2 ⟨zero, some⟩
    have split : bytes ++ later =
        bytes.take n ++ (bytes.drop (bytes.take n).length ++ later) := by
      rw [← List.append_assoc, List.prefix_iff_eq_append.1 (List.take_prefix n bytes)]
    rw [split]
    exact .piece front fewer ⟨room, later, rfl, next⟩

theorem Keeps.read {b : Buffered σ} (keeps : b.Keeps failure? payload refusals) (n : Nat) :
    Source.Replies (Keeps failure?) failure? n payload refusals (b.read n) := by
  obtain ⟨source, capacity, buffer⟩ := b
  obtain ⟨room, later, rfl, tells⟩ := keeps
  dsimp only at room tells ⊢
  rw [Buffered.read]
  dsimp only
  split
  -- a large request goes past the buffer
  · next past =>
    obtain ⟨rfl, large⟩ := past
    have replies := tells.read n
    generalize Source.read source n = answer at replies ⊢
    cases replies with
    | piece some fewer next => exact .piece some fewer ⟨room, _, rfl, next⟩
    | nothing zero fewer next => exact .nothing zero fewer ⟨room, _, rfl, next⟩
    | interrupted fewer next => exact .interrupted fewer ⟨room, _, rfl, next⟩
    | ended ends fewer next => exact .ended ends fewer ⟨room, _, rfl, next⟩
    | failed fails complete => exact .failed fails complete
  · rw [Buffered.fillBuffer, Buffered.refill]
    dsimp only
    by_cases empty : buffer = []
    · subst empty
      have replies := tells.read capacity
      rw [if_pos rfl]
      generalize Source.read source capacity = answer at replies ⊢
      cases replies with
      | piece some fewer next => exact replies_take room some fewer next n
      | nothing zero => exact absurd zero (Nat.ne_of_gt room)
      | interrupted fewer next => exact .interrupted fewer ⟨room, _, rfl, next⟩
      | ended ends fewer next =>
        dsimp only
        rw [List.take_nil]
        exact .ended ends fewer ⟨room, _, rfl, next⟩
      | failed fails complete => exact .failed fails complete
    · rw [if_neg empty]
      exact replies_take room empty (Nat.le_refl _) tells n

end Buffered

/-- A buffer in front of a source tells what the source does. -/
theorem Source.Tells.buffered {σ : Type} [Source σ] {s : σ} {payload : Bytes}
    {failure? : Option IoError} {refusals capacity : Nat}
    (tells : Source.Tells s payload failure? refusals) (room : 0 < capacity) :
    Source.Tells (⟨s, capacity, []⟩ : Buffered σ) payload failure? refusals :=
  ⟨Buffered.Keeps failure?, fun _ _ _ n keeps => keeps.read n, room, payload, rfl, tells⟩

/-! ## Decoders -/

namespace Members

variable {σ : Type} [Source σ]

variable {m : Members σ} {data payload : Bytes} {failure? : Option IoError} {refusals : Nat}

/-- What a decoder hands over whose failures are all its own: the verdict on the data before it, and
    at the end nothing. -/
def Keeps (failure? : Option IoError) (m : Members σ) (payload : Bytes) (refusals : Nat) : Prop :=
  (∃ data, m.Holds data refusals ∧ Source.FailsOnly IoError.FromDecoder m ∧
    (m.verdict data).payload = payload ∧ (m.verdict data).failure = failure?) ∨
  (m.AtEnd ∧ payload = [] ∧ failure? = none)

theorem Keeps.read (keeps : m.Keeps failure? payload refusals) (n : Nat) :
    Source.Replies (Keeps failure?) failure? n payload refusals (Source.read m n) := by
  obtain ⟨data, holds, own, rfl, told⟩ | ⟨atEnd, rfl, none⟩ := keeps
  · by_cases zero : n = 0
    · subst zero
      exact .nothing rfl (Nat.le_refl _) (.inl ⟨data, holds, own, rfl, told⟩)
    have answers := holds.read (Nat.pos_of_ne_zero zero)
    rcases answer : Source.read m n with ⟨result, m'⟩
    obtain ⟨fails, next⟩ := own.read answer
    rw [answer] at answers
    cases answers with
    | delivered some fewer holds whole =>
      rw [whole] at told ⊢
      exact .piece some fewer (.inl ⟨_, holds, next, rfl, told⟩)
    | refused passing fewer holds whole =>
      rw [whole] at told ⊢
      cases passing with
      | interrupted => exact .interrupted fewer (.inl ⟨_, holds, next, rfl, told⟩)
      | failed passing => exact absurd passing (fails _ rfl).not_passing
    | failed final failure members complete => exact .failed (told.symm.trans failure) complete
    | ended atEnd ends =>
      rw [ends] at told ⊢
      exact .ended told.symm (Nat.le_refl _) (.inr ⟨atEnd, rfl, told.symm⟩)
  · rw [atEnd.read]
    exact .ended none (Nat.le_refl _) (.inr ⟨atEnd, rfl, none⟩)

/-- A decoder whose failures are all its own tells the verdict on the data before it. -/
theorem Holds.tells (holds : m.Holds data refusals)
    (own : Source.FailsOnly IoError.FromDecoder m) :
    Source.Tells m (m.verdict data).payload (m.verdict data).failure refusals :=
  ⟨Keeps (m.verdict data).failure, fun _ _ _ n keeps => keeps.read n,
    .inl ⟨data, holds, own, rfl, rfl⟩⟩

/-- A decoder in front of a source that does not fail tells the verdict on what the source serves. -/
theorem tells {s : σ} {capacity : Nat} (serves : Source.Serves s data refusals)
    (unfailing : Source.Unfailing s) (room : 0 < capacity) :
    Source.Tells (new ⟨s, capacity, []⟩) (verdictOn 0 data).payload (verdictOn 0 data).failure
      refusals :=
  (holds_new serves room).tells (fromDecoder_of_unfailing unfailing capacity)

end Members

/-! ## Readers -/

section Readers

variable {σ : Type} [Source σ] {s : σ} {data payload bytes : Bytes} {failure? : Option IoError}
  {error? : Option Error} {refusals : Nat} {options : ReaderOptions} {r : Reader σ}

theorem ReaderOptions.validate_eq_ok_iff {options : ReaderOptions} :
    options.validate = .ok () ↔
      options.blockSize ≠ 0 ∧ options.blockSize ≤ maxBlockSize ∧ options.queueSize ≠ 0 := by
  simp only [validate, bind, Except.bind, validateBlockSize, validateQueueSize]
  by_cases empty : options.blockSize = 0
  · simp [empty]
  · by_cases large : maxBlockSize < options.blockSize
    · simp only [empty, large, if_true, if_false, reduceCtorEq, false_iff]
      rintro ⟨-, small, -⟩
      omega
    · by_cases none : options.queueSize = 0
      · simp [empty, large, none]
      · simp only [empty, large, none, if_false, ne_eq, not_false_eq_true, Nat.not_lt.1 large,
          and_self, iff_true]
        rfl

omit [Source σ] in
/-- Opening succeeds just if the options pass the checks and there can be room for the queue. -/
theorem Reader.open_eq_done_iff :
    Reader.open s options = .done r ↔ options.validate = .ok () ∧
      canAllocate placeSize options.queueSize = true ∧
      r = .new s options.blockSize options.queueSize := by
  unfold Reader.open
  split
  · next invalid => simp [invalid]
  · next valid =>
    rw [valid]
    by_cases room : canAllocate placeSize options.queueSize = true
    · simp [room, eq_comm]
    · simp [room]

/-- A reader goes with what its decoder comes to chunk by chunk, whatever that is. -/
theorem Reader.follows_chunks (opened : Reader.open s options = .done r) :
    0 < options.blockSize ∧
      Session.Follows
        (Source.readChunks (Members.new ⟨s, inputCapacity, []⟩) options.blockSize).1.flatten
        (Source.readChunks (Members.new ⟨s, inputCapacity, []⟩) options.blockSize).2.failure?
        (Session.start r) := by
  obtain ⟨valid, -, rfl⟩ := open_eq_done_iff.1 opened
  obtain ⟨some, -, room⟩ := ReaderOptions.validate_eq_ok_iff.1 valid
  exact ⟨Nat.pos_of_ne_zero some, Session.follows_start (Nat.pos_of_ne_zero room)⟩

/-- A reader that decodes ahead hands the verdict over in whatever order the steps are taken: the
    same bytes always, and behind them the failure as it is reported. -/
theorem Reader.follows_of_open (serves : Source.Serves s data refusals)
    (unfailing : Source.Unfailing s) (opened : Reader.open s options = .done r) :
    ∃ bytes, bytes <+: (verdictOn 0 data).payload ∧
      ((verdictOn 0 data).failure ≠ some corruptBody → bytes = (verdictOn 0 data).payload) ∧
      ∀ session, Relation.ReflTransGen Session.Step (Session.start r) session →
        session.Follows bytes ((verdictOn 0 data).failure.map Error.ofDecoder) := by
  obtain ⟨pos, follows⟩ := Reader.follows_chunks opened
  have comes := (Members.tells serves unfailing (show 0 < inputCapacity by decide)).readChunks pos
  rw [comes.stop, Ending.failure?_behind] at follows
  exact ⟨_, comes.front, comes.complete, fun session => Session.follows_of_reaches follows⟩

/-- A caller that is not being answered can be. -/
theorem Session.Follows.ready {session : Session σ} (follows : session.Follows bytes error?)
    (free : session.pending = none) : ∃ result, session.reader.caller = .ready result := by
  rcases follows.isOpen.caller with ⟨filling, -⟩ | ⟨result, ready, -⟩
  · obtain ⟨q, pending, -⟩ := follows.waiting filling
    rw [free] at pending
    cases pending
  · exact ⟨result, ready⟩

/-- One request to a reader that goes with these bytes, as a source takes it. -/
theorem Session.Follows.read {answered : Transcript}
    (follows : Session.Follows bytes error? ⟨r, none, answered⟩)
    (ahead : bytes = Transcript.handed answered ++ payload) (n : Nat) :
    ∃ answer r', Source.read r n = (Reader.toReadResult answer, r') ∧
      Session.Follows bytes error? ⟨r', none, answered ++ [(.read n, answer)]⟩ ∧
      (ReadRequest.read n).Fits payload error? answer := by
  obtain ⟨result, ready⟩ := follows.ready rfl
  have called := Session.reaches_call follows.isOpen follows.room answered (.read n)
  have next := Session.follows_of_reaches follows called
  obtain ⟨left, split, fits⟩ := next.sound.fits answered _ _ [] rfl
  obtain rfl := List.append_cancel_left (ahead.symm.trans split)
  refine ⟨_, _, ?_, next, fits⟩
  show (Reader.toReadResult (r.readInto n).1, (r.readInto n).2) = _
  rw [Session.readInto_eq_call follows.isOpen follows.room ready]

/-- What has been handed over behind one more answer. -/
theorem Transcript.ahead_concat {answered : Transcript} {later piece : Bytes}
    (ahead : bytes = Transcript.handed answered ++ (piece ++ later)) (n : Nat) :
    bytes = Transcript.handed (answered ++ [(.read n, .ok piece)]) ++ later := by
  rw [show Transcript.handed (answered ++ [(.read n, .ok piece)]) =
    Transcript.handed answered ++ piece from
      Transcript.handed_concat answered (.read n) (.ok piece), List.append_assoc]
  exact ahead

/-- Read by read a reader tells what its sessions go with; the failure stays in its slot. -/
theorem Session.Follows.tells {answered : Transcript}
    (follows : Session.Follows bytes error? ⟨r, none, answered⟩)
    (ahead : bytes = Transcript.handed answered ++ payload) :
    Source.Tells r payload (error?.map (Error.toIo true)) 0 := by
  refine ⟨fun r payload _ => ∃ answered, Session.Follows bytes error? ⟨r, none, answered⟩ ∧
    bytes = Transcript.handed answered ++ payload, ?_, answered, follows, ahead⟩
  rintro r payload refusals n ⟨answered, follows, ahead⟩
  obtain ⟨answer, r', result, next, fits⟩ := follows.read ahead n
  rw [result]
  rw [ReadRequest.Fits] at fits
  split at fits
  · next zero =>
    subst fits
    exact .nothing zero (Nat.le_refl _) ⟨_, next, Transcript.ahead_concat ahead n⟩
  · rw [Delivers] at fits
    split at fits
    · next none =>
      subst none fits
      cases error? with
      | none => exact .ended rfl (Nat.le_refl _) ⟨_, next, Transcript.ahead_concat ahead n⟩
      | some failure => exact .failed rfl fun _ => rfl
    · obtain ⟨piece, rfl, some, ⟨later, rfl⟩, -⟩ := fits
      exact .piece some (Nat.le_refl _) ⟨_, next, Transcript.ahead_concat ahead n⟩

end Readers

end ParallelGzip
