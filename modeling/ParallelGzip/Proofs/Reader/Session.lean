import Mathlib.Logic.Relation
import ParallelGzip.Proofs.Reader.Outlook
import ParallelGzip.Stream.Scripted

set_option autoImplicit false

/-! # Sessions: a reader that decodes ahead gives what decoding in order gives

A caller reads, looks at what is left of a chunk, and consumes some of it, in any order, while the
worker takes its steps whenever it likes. Whatever the order, what is handed over is a prefix of what
reading the members chunk by chunk gives, the end of the stream is told only when everything has been
handed over and the decoder came to it, and the failure of a decoder that did not is told from then
on by every request. `Session.Follows` is the invariant, `Reader.reads_in_order` the result. -/

namespace ParallelGzip

/-! ## Requests -/

/-- What the caller of an open reader can ask for. -/
inductive ReadRequest
  /-- Hand over at most `n` bytes. -/
  | read (n : Nat)
  /-- Show what is left of the chunk, or the next one. -/
  | look
  /-- Hand over `n` of the bytes that have been shown. -/
  | consume (n : Nat)

/-- What is told at the end, where this failure has been met or none. -/
def endAnswer : Option Error → Except Error Bytes
  | none => .ok []
  | some failure => .error failure

/-- An answer to a request for at most `n` of the bytes `left`, behind which there is this failure
    or none: some of them, and the end only if there are none. -/
def Delivers (left : Bytes) (failure? : Option Error) (n : Nat) (answer : Except Error Bytes) :
    Prop :=
  if left = [] then answer = endAnswer failure?
  else ∃ bytes, answer = .ok bytes ∧ bytes ≠ [] ∧ bytes <+: left ∧ bytes.length ≤ n

namespace ReadRequest

/-- Whether a request needs a chunk. -/
def fills : ReadRequest → Bool
  | read n => n != 0
  | look => true
  | consume _ => false

/-- What an answer hands over. -/
def handed : ReadRequest → Except Error Bytes → Bytes
  | look, _ => []
  | _, .ok bytes => bytes
  | _, .error _ => []

/-- An answer that a request may have when `left` is still to come, and behind it this failure or
    none. -/
def Fits (left : Bytes) (failure? : Option Error) (answer : Except Error Bytes) :
    ReadRequest → Prop
  | read n => if n = 0 then answer = .ok [] else Delivers left failure? n answer
  | look => Delivers left failure? left.length answer
  | consume n => ∃ bytes, answer = .ok bytes ∧ bytes <+: left ∧ bytes.length ≤ n

end ReadRequest

/-- Requests with their answers. -/
abbrev Transcript := List (ReadRequest × Except Error Bytes)

/-- Everything that has been handed over. -/
def Transcript.handed (answered : Transcript) : Bytes :=
  answered.flatMap fun (q, answer) => q.handed answer

theorem Transcript.handed_concat (answered : Transcript) (q : ReadRequest)
    (answer : Except Error Bytes) :
    Transcript.handed (answered ++ [(q, answer)]) = answered.handed ++ q.handed answer := by
  simp [handed]

/-- A transcript that goes with these bytes and the failure behind them: every request has had an
    answer that fits what was still to come, and what is consumed of bytes that have been shown are
    the first of them. -/
structure Transcript.Sound (bytes : Bytes) (failure? : Option Error) (answered : Transcript) :
    Prop where
  fits : ∀ (before : Transcript) (q : ReadRequest) (answer : Except Error Bytes)
    (after : Transcript), answered = before ++ (q, answer) :: after →
      ∃ left, bytes = Transcript.handed before ++ left ∧ q.Fits left failure? answer
  consumed : ∀ (before : Transcript) (shown : Bytes) (n : Nat) (answer : Except Error Bytes)
    (after : Transcript),
      answered = before ++ (.look, .ok shown) :: (.consume n, answer) :: after →
        answer = .ok (shown.take n)

/-- The last element of a list is behind any other, or is the one in question. -/
theorem eq_of_concat_eq {α : Type} {xs before after : List α} {x y : α}
    (same : xs ++ [x] = before ++ y :: after) :
    (after = [] ∧ xs = before ∧ x = y) ∨ ∃ between, xs = before ++ y :: between := by
  rcases List.eq_nil_or_concat after with rfl | ⟨between, z, rfl⟩
  · exact .inl ⟨rfl, List.append_singleton_inj.1 same⟩
  · rw [List.concat_eq_append, ← List.cons_append, ← List.append_assoc] at same
    exact .inr ⟨between, (List.append_singleton_inj.1 same).1⟩

theorem Transcript.Sound.concat {bytes left : Bytes} {failure? : Option Error}
    {answered : Transcript} {q : ReadRequest} {answer : Except Error Bytes}
    (sound : answered.Sound bytes failure?) (ahead : bytes = Transcript.handed answered ++ left)
    (fits : q.Fits left failure? answer)
    (consumed : ∀ before shown n, answered = before ++ [(.look, .ok shown)] → q = .consume n →
      answer = .ok (shown.take n)) :
    Transcript.Sound bytes failure? (answered ++ [(q, answer)]) where
  fits := by
    intro before q' answer' after same
    rcases eq_of_concat_eq same with ⟨-, rfl, last⟩ | ⟨between, earlier⟩
    · cases last
      exact ⟨left, ahead, fits⟩
    · exact sound.fits before q' answer' between earlier
  consumed := by
    intro before shown n answer' after same
    have split : answered ++ [(q, answer)] =
        (before ++ [(.look, .ok shown)]) ++ (.consume n, answer') :: after := by
      rw [same, List.append_assoc, List.singleton_append]
    rcases eq_of_concat_eq split with ⟨-, rfl, last⟩ | ⟨between, earlier⟩
    · cases last
      exact consumed before shown n rfl rfl
    · rw [List.append_assoc, List.singleton_append] at earlier
      exact sound.consumed before shown n answer' between earlier

variable {σ : Type}

namespace Reader

/-! ## Carrying out a request -/

/-- Begin to carry out a request: wait for a chunk if one is needed and nothing is left of the
    last. -/
def ask (r : Reader σ) (q : ReadRequest) : Reader σ :=
  if q.fills ∧ r.rest = [] then { r with caller := .filling } else r

/-- What there is to be shown when the caller does not wait any more. -/
def shown (r : Reader σ) : Except Error Bytes :=
  if r.rest ≠ [] then .ok r.rest
  else
    match r.result with
    | .ok () => .ok []
    | .error failure => .error failure

/-- Answer a request when the caller does not wait any more. -/
def answer (r : Reader σ) : ReadRequest → Except Error Bytes × Reader σ
  | .read n =>
    if n = 0 then (.ok [], r)
    else
      match r.shown with
      | .ok bytes => (.ok (bytes.take n), r.consume n)
      | .error failure => (.error failure, r)
  | .look => (r.shown, r)
  | .consume n => (.ok (r.rest.take n), r.consume n)

/-- Nothing is left anywhere, and the caller has been told so. -/
structure Drained (r : Reader σ) (result : Except Error Unit) : Prop where
  queue : r.queue = []
  worker : r.worker = .exited
  result : result = r.endResult

/-- The worker does not touch what belongs to the caller. -/
theorem WorkerMove.frame [Source σ] {r r' : Reader σ} (move : r.WorkerMove r') :
    r'.caller = r.caller ∧ r'.rest = r.rest ∧ r'.position = r.position ∧
      r'.queueSize = r.queueSize := by
  cases move <;> exact ⟨rfl, rfl, rfl, rfl⟩

/-- A worker that is gone does nothing. -/
theorem WorkerMove.not_exited [Source σ] {r r' : Reader σ} (move : r.WorkerMove r') :
    r.worker ≠ .exited := by
  intro exited
  cases move <;> simp_all

/-- A waiting caller moves, or the worker does: the queue has room when it is empty. -/
theorem exists_step?_of_filling [Source σ] {r : Reader σ} (room : 0 < r.queueSize)
    (phase : r.caller = .filling) : ∃ party r', r.step? party = some r' := by
  cases callerStep : r.callerStep? with
  | some r' => exact ⟨.caller, r', callerStep⟩
  | none =>
    obtain ⟨empty, present⟩ := waits_of_callerStep? callerStep phase
    cases workerStep : r.workerStep? with
    | some r' => exact ⟨.worker, r', workerStep⟩
    | none =>
      rcases waits_of_workerStep? workerStep with ⟨chunk, failure, -, -, full⟩ | exited
      · rw [empty, List.length_nil] at full
        omega
      · exact absurd exited present

end Reader

/-! ## Sessions -/

/-- A reader in use. -/
structure Session (σ : Type) where
  reader : Reader σ
  /-- The request that is being carried out. -/
  pending : Option ReadRequest
  /-- The requests that have been answered. -/
  answered : Transcript

namespace Session

/-- The session before the first request. -/
def start (r : Reader σ) : Session σ := ⟨r, none, []⟩

variable [Source σ]

/-- What can happen next: a party takes a step, the caller makes a request when none is being
    carried out, or it gets its answer. -/
inductive Step : Session σ → Session σ → Prop
  | step {s : Session σ} {party : Reader.Party} {r : Reader σ}
      (step : s.reader.step? party = some r) : Step s { s with reader := r }
  | ask {s : Session σ} (q : ReadRequest) (free : s.pending = none) :
      Step s { s with reader := s.reader.ask q, pending := some q }
  | answer {s : Session σ} {q : ReadRequest} {result : Except Error Unit}
      (pending : s.pending = some q) (ready : s.reader.caller = .ready result) :
      Step s ⟨(s.reader.answer q).2, none, s.answered ++ [(q, (s.reader.answer q).1)]⟩

/-! ## What a session keeps -/

/-- The session so far goes with these bytes and the failure behind them. -/
structure Follows (bytes : Bytes) (failure? : Option Error) (s : Session σ) : Prop where
  isOpen : s.reader.Open
  room : 0 < s.reader.queueSize
  ahead : Transcript.handed s.answered ++ s.reader.outlook.1 = bytes
  failure : s.reader.outlook.2 = failure?
  position : s.reader.position = (Transcript.handed s.answered).length
  waiting : s.reader.caller = .filling → ∃ q, s.pending = some q ∧ q.fills = true
  drained : ∀ q result, s.pending = some q → q.fills = true → s.reader.caller = .ready result →
    s.reader.rest = [] → s.reader.Drained result
  shown : ∀ before bytes, s.answered = before ++ [(.look, .ok bytes)] →
    (s.pending = none ∨ ∃ n, s.pending = some (.consume n)) → s.reader.rest = bytes
  sound : Transcript.Sound bytes failure? s.answered

namespace Follows

variable {bytes : Bytes} {failure? : Option Error} {s s' : Session σ}

theorem workerMove (follows : s.Follows bytes failure?) {r : Reader σ}
    (move : s.reader.WorkerMove r) : Follows bytes failure? { s with reader := r } := by
  obtain ⟨caller, rest, position, queueSize⟩ := move.frame
  have outlook := Reader.outlook_of_workerMove follows.isOpen move
  refine ⟨follows.isOpen.workerMove move, queueSize ▸ follows.room, outlook ▸ follows.ahead,
    outlook ▸ follows.failure, position.trans follows.position, ?_, ?_, ?_, follows.sound⟩
  · intro phase
    exact follows.waiting (caller ▸ phase)
  · intro q result pending fills ready empty
    have drained := follows.drained q result pending fills (caller ▸ ready) (rest ▸ empty)
    exact absurd drained.worker move.not_exited
  · intro before bytes answered free
    exact rest.trans (follows.shown before bytes answered free)

theorem callerMove (follows : s.Follows bytes failure?) {r : Reader σ}
    (move : s.reader.CallerMove r) : Follows bytes failure? { s with reader := r } := by
  have caller := follows.isOpen.caller
  have isOpen := follows.isOpen.callerMove move
  have outlook := Reader.outlook_of_callerMove follows.isOpen move
  -- somebody waits for a chunk, so nothing that was shown counts any more
  have unshown : s.reader.caller = .filling →
      ¬(s.pending = none ∨ ∃ n, s.pending = some (.consume n)) := by
    intro phase free
    obtain ⟨q, pending, fills⟩ := follows.waiting phase
    rcases free with none | ⟨n, consuming⟩
    · rw [none] at pending
      cases pending
    · rw [consuming] at pending
      cases pending
      cases fills
  cases move with
  | @take chunk queue phase queue? =>
    refine ⟨isOpen, follows.room, outlook ▸ follows.ahead, outlook ▸ follows.failure,
      follows.position, fun _ => follows.waiting phase, ?_, ?_, follows.sound⟩
    · intro q result pending fills ready empty
      -- an empty chunk would not have made the caller ready
      have none : chunk = [] := empty
      simp only [none, if_true, reduceCtorEq] at ready
    · intro before bytes answered free
      exact absurd free (unshown phase)
  | finish phase empty exited =>
    refine ⟨isOpen, follows.room, outlook ▸ follows.ahead, outlook ▸ follows.failure,
      follows.position, nofun, ?_, ?_, follows.sound⟩
    · intro q result pending fills ready none
      cases ready
      exact ⟨empty, exited, rfl⟩
    · intro before bytes answered free
      exact absurd free (unshown phase)
  | stop phase | detach phase | join phase =>
    rw [phase] at caller
    simp at caller

/-- A request that needs a chunk waits for one if nothing is left of the last. -/
theorem ask (follows : s.Follows bytes failure?) (q : ReadRequest) (free : s.pending = none) :
    Follows bytes failure? { s with reader := s.reader.ask q, pending := some q } := by
  obtain ⟨isOpen, room, ahead, failure, position, waiting, drained, shown, sound⟩ := follows
  have answers : ∀ before bytes, s.answered = before ++ [(.look, .ok bytes)] →
      s.reader.rest = bytes := fun before bytes answered => shown before bytes answered (.inl free)
  by_cases wait : q.fills ∧ s.reader.rest = []
  · rw [Reader.ask, if_pos wait]
    refine ⟨?_, room, ahead, failure, position, fun _ => ⟨q, rfl, wait.1⟩, ?_, ?_, sound⟩
    · exact ⟨isOpen.closed, isOpen.stop, isOpen.attached, isOpen.slot, .inl ⟨rfl, wait.2⟩⟩
    · intro _ _ _ _ ready
      cases ready
    · intro before bytes answered _
      exact answers before bytes answered
  · rw [Reader.ask, if_neg wait]
    refine ⟨isOpen, room, ahead, failure, position, ?_, ?_, ?_, sound⟩
    · intro phase
      obtain ⟨q', pending, -⟩ := waiting phase
      rw [free] at pending
      cases pending
    · intro q' result pending fills _ empty
      cases pending
      exact absurd ⟨fills, empty⟩ wait
    · intro before bytes answered _
      exact answers before bytes answered

/-- What there is to be shown fits what is still to come. -/
theorem delivers_shown (follows : s.Follows bytes failure?) {q : ReadRequest}
    {result : Except Error Unit} (pending : s.pending = some q) (fills : q.fills = true)
    (ready : s.reader.caller = .ready result) :
    (s.reader.rest = [] ∧ s.reader.outlook.1 = [] ∧ s.reader.shown = endAnswer failure?) ∨
      (s.reader.rest ≠ [] ∧ s.reader.shown = .ok s.reader.rest) := by
  by_cases empty : s.reader.rest = []
  · obtain ⟨queue, worker, told⟩ := follows.drained q result pending fills ready empty
    have failure := follows.failure
    simp only [Reader.outlook, empty, queue, Reader.unsent, worker] at failure ⊢
    refine .inl ⟨trivial, rfl, ?_⟩
    subst failure
    simp only [Reader.shown, empty, Reader.result, ready, told, Reader.endResult]
    cases s.reader.failure <;> rfl
  · exact .inr ⟨empty, if_pos empty⟩

/-- An answer that hands over what there is of `n` bytes. -/
theorem hand (follows : s.Follows bytes failure?) {q : ReadRequest} {n : Nat}
    {result : Except Error Unit} (ready : s.reader.caller = .ready result)
    (hands : ∀ answer, q.handed (.ok answer) = answer)
    (fits : q.Fits s.reader.outlook.1 failure? (.ok (s.reader.rest.take n)))
    (consumes : ∀ m, q = .consume m → s.pending = some q ∧ m = n) :
    Follows bytes failure?
      ⟨s.reader.consume n, none, s.answered ++ [(q, .ok (s.reader.rest.take n))]⟩ := by
  obtain ⟨isOpen, room, ahead, failure, position, waiting, drained, shown, sound⟩ := follows
  have handed : Transcript.handed (s.answered ++ [(q, .ok (s.reader.rest.take n))]) =
      Transcript.handed s.answered ++ s.reader.rest.take n := by
    rw [Transcript.handed_concat, hands]
  obtain ⟨taken, same⟩ := Reader.outlook_consume s.reader n
  refine ⟨isOpen.consume ready n, room, ?_, same.trans failure, ?_, ?_, nofun, ?_, ?_⟩
  · rw [handed, List.append_assoc, ← taken, ahead]
  · rw [handed, List.length_append, ← position]
    rfl
  · intro phase
    exact absurd (ready.symm.trans phase) nofun
  · intro before shown answered _
    obtain ⟨-, last⟩ := List.append_singleton_inj.1 answered
    cases last
    have nothing := hands [0]
    cases nothing
  · refine sound.concat ahead.symm fits ?_
    rintro before bytes m answered rfl
    obtain ⟨pending, rfl⟩ := consumes m rfl
    rw [shown before bytes answered (.inr ⟨m, pending⟩)]

/-- An answer that hands over nothing. -/
theorem keep (follows : s.Follows bytes failure?) {q : ReadRequest} {answer : Except Error Bytes}
    {result : Except Error Unit} (ready : s.reader.caller = .ready result)
    (nothing : q.handed answer = []) (fits : q.Fits s.reader.outlook.1 failure? answer)
    (shows : ∀ shown, q = .look → answer = .ok shown → s.reader.rest = shown)
    (keeps : ∀ n, q ≠ .consume n) :
    Follows bytes failure? ⟨s.reader, none, s.answered ++ [(q, answer)]⟩ := by
  obtain ⟨isOpen, room, ahead, failure, position, waiting, drained, shown, sound⟩ := follows
  have handed : Transcript.handed (s.answered ++ [(q, answer)]) = Transcript.handed s.answered := by
    rw [Transcript.handed_concat, nothing, List.append_nil]
  refine ⟨isOpen, room, handed ▸ ahead, failure, handed ▸ position, ?_, nofun, ?_, ?_⟩
  · intro phase
    exact absurd (ready.symm.trans phase) nofun
  · intro before bytes answered _
    obtain ⟨-, last⟩ := List.append_singleton_inj.1 answered
    cases last
    exact shows bytes rfl rfl
  · exact sound.concat ahead.symm fits fun _ _ n _ consuming => absurd consuming (keeps n)

/-- Every request is answered as it has to be. -/
theorem answer (follows : s.Follows bytes failure?) {q : ReadRequest} {result : Except Error Unit}
    (pending : s.pending = some q) (ready : s.reader.caller = .ready result) :
    Follows bytes failure?
      ⟨(s.reader.answer q).2, none, s.answered ++ [(q, (s.reader.answer q).1)]⟩ := by
  have before := s.reader.rest_isPrefix_outlook
  cases q with
  | read n =>
    by_cases zero : n = 0
    · subst zero
      exact follows.keep ready rfl rfl nofun nofun
    rw [Reader.answer, if_neg zero]
    rcases follows.delivers_shown pending (by simpa [ReadRequest.fills] using zero) ready with
      ⟨empty, ended, shown⟩ | ⟨some, shown⟩
    · rw [shown]
      cases failure? with
      | none =>
        have handed := follows.hand (q := .read n) (n := n) ready (fun _ => rfl) ?_ nofun
        · rw [empty] at handed
          exact handed
        · rw [ReadRequest.Fits, if_neg zero, Delivers, if_pos ended, empty, List.take_nil]
          rfl
      | some failure =>
        refine follows.keep ready rfl ?_ nofun nofun
        rw [ReadRequest.Fits, if_neg zero, Delivers, if_pos ended]
        rfl
    · rw [shown]
      refine follows.hand ready (fun _ => rfl) ?_ nofun
      rw [ReadRequest.Fits, if_neg zero, Delivers, if_neg (Reader.outlook_ne_nil some)]
      refine ⟨_, rfl, ?_, (List.take_prefix _ _).trans before, List.length_take_le _ _⟩
      rw [Ne, List.take_eq_nil_iff]
      exact not_or.2 ⟨zero, some⟩
  | look =>
    rw [Reader.answer]
    rcases follows.delivers_shown pending rfl ready with ⟨empty, ended, shown⟩ | ⟨some, shown⟩
    · refine follows.keep ready rfl ?_ ?_ nofun
      · rw [ReadRequest.Fits, Delivers, if_pos ended, shown]
      · intro bytes _ told
        rw [shown] at told
        rw [empty]
        cases failure? with
        | none =>
          cases told
          rfl
        | some failure => cases told
    · refine follows.keep ready rfl ?_ ?_ nofun
      · rw [ReadRequest.Fits, Delivers, if_neg (Reader.outlook_ne_nil some)]
        exact ⟨_, shown, some, before, before.length_le⟩
      · intro bytes _ told
        rw [shown] at told
        cases told
        rfl
  | consume n =>
    refine follows.hand ready (fun _ => rfl) ?_ ?_
    · exact ⟨_, rfl, (List.take_prefix _ _).trans before, List.length_take_le _ _⟩
    · intro m same
      cases same
      exact ⟨pending, rfl⟩

theorem step (follows : s.Follows bytes failure?) (step : Step s s') :
    s'.Follows bytes failure? := by
  cases step with
  | @step party r step =>
    cases party with
    | caller => exact follows.callerMove (Reader.move_of_callerStep? step)
    | worker => exact follows.workerMove (Reader.move_of_workerStep? step)
  | ask q free => exact follows.ask q free
  | answer pending ready => exact follows.answer pending ready

end Follows

/-- What follows from the first request follows throughout. -/
theorem follows_of_reaches {bytes : Bytes} {failure? : Option Error} {s s' : Session σ}
    (follows : s.Follows bytes failure?) (reached : Relation.ReflTransGen Step s s') :
    s'.Follows bytes failure? := by
  induction reached with
  | refl => exact follows
  | tail _ step ih => exact ih.step step

/-- A reader that has been opened is about to decode the members of its source. -/
theorem follows_start {source : σ} {chunkSize queueSize : Nat} (room : 0 < queueSize) :
    let (chunks, ending) :=
      Source.readChunks (Members.new ⟨source, Reader.inputCapacity, []⟩) chunkSize
    Follows chunks.flatten ending.failure? (start (Reader.new source chunkSize queueSize)) where
  isOpen := ⟨rfl, rfl, rfl, .inr rfl, .inr ⟨_, rfl, fun _ => rfl⟩⟩
  room := room
  ahead := rfl
  failure := rfl
  position := rfl
  waiting := nofun
  drained := nofun
  shown := by
    intro before shown answered
    simp [start] at answered
  sound := ⟨by simp [start], by simp [start]⟩

/-! ## Requests are answered -/

/-- The request that is being carried out, if one is, is answered whoever takes the next step, and
    the step after it, and so on. -/
inductive Returns : Session σ → Prop
  | now {s : Session σ} (free : s.pending = none) : Returns s
  | later {s : Session σ} (can : ∃ s', Step s s') (all : ∀ s', Step s s' → Returns s') : Returns s

theorem Follows.returns {bytes : Bytes} {failure? : Option Error} {s : Session σ}
    (follows : s.Follows bytes failure?) : s.Returns := by
  generalize weight : s.reader.weight = n
  induction n using Nat.strongRecOn generalizing s with
  | ind n ih =>
    cases pending : s.pending with
    | none => exact .now pending
    | some q =>
      refine .later ?_ ?_
      · rcases follows.isOpen.caller with ⟨phase, -⟩ | ⟨result, ready, -⟩
        · obtain ⟨party, r, step⟩ := Reader.exists_step?_of_filling follows.room phase
          exact ⟨_, .step step⟩
        · exact ⟨_, .answer pending ready⟩
      · intro s' step
        have follows' := follows.step step
        cases step with
        | step step => exact ih _ (weight ▸ Reader.weight_step?_lt step) follows' rfl
        | ask q free =>
          rw [free] at pending
          cases pending
        | answer => exact .now rfl

/-! ## The calls of a reader -/

/-- Running a call is taking some steps. -/
theorem reaches_run (r : Reader σ) (pending : Option ReadRequest) (answered : Transcript) :
    Relation.ReflTransGen Step ⟨r, pending, answered⟩ ⟨r.run, pending, answered⟩ := by
  have first : ∀ {r r' : Reader σ} {party : Reader.Party}, r.step? party = some r' →
      Step ⟨r, pending, answered⟩ ⟨r', pending, answered⟩ := fun step => .step step
  fun_induction Reader.run r with
  | case1 r r' step ih => exact .head (first step) ih
  | case2 r step ready phase => exact .refl
  | case3 r waits decoding phase ih =>
    have step : r.step? .worker = some r.decode := by
      simp only [Reader.step?, Reader.workerStep?, decoding]
    exact .head (first step) ih
  | case4 r waits r' step _ _ ih => exact .head (first step) ih
  | case5 => exact .refl

/-- A call that has been run has come to its end. -/
theorem ready_run {r : Reader σ} (isOpen : r.Open) (room : 0 < r.queueSize) :
    ∃ result, r.run.caller = .ready result ∧ (r.run.rest ≠ [] → result = .ok ()) := by
  have kept : ∀ {r r' : Reader σ} {party : Reader.Party}, r.Open ∧ 0 < r.queueSize →
      r.step? party = some r' → r'.Open ∧ 0 < r'.queueSize := by
    rintro r r' party ⟨isOpen, room⟩ step
    cases party with
    | caller =>
      have move := Reader.move_of_callerStep? step
      exact ⟨isOpen.callerMove move, move.frame.2 ▸ room⟩
    | worker =>
      have move := Reader.move_of_workerStep? step
      exact ⟨isOpen.workerMove move, move.frame.2.2.2 ▸ room⟩
  have progress : ∀ {r : Reader σ}, r.Open ∧ 0 < r.queueSize →
      (∃ result, r.caller = .ready result) ∨ ∃ party r', r.step? party = some r' := by
    rintro r ⟨isOpen, room⟩
    rcases isOpen.caller with ⟨phase, -⟩ | ⟨result, ready, -⟩
    · exact .inr (Reader.exists_step?_of_filling room phase)
    · exact .inl ⟨result, ready⟩
  obtain ⟨⟨isOpen', -⟩, result, ready⟩ := Reader.keeps_run _ kept progress ⟨isOpen, room⟩
  have caller := isOpen'.caller
  simp only [ready, reduceCtorEq, false_and, CallerPhase.ready.injEq, exists_eq_left',
    false_or] at caller
  exact ⟨result, ready, caller⟩

/-- The call that carries out a request. -/
def call (r : Reader σ) (q : ReadRequest) : Except Error Bytes × Reader σ :=
  (r.ask q).run.answer q

/-- A call is a request that has been answered. -/
theorem reaches_call {r : Reader σ} (isOpen : r.Open) (room : 0 < r.queueSize)
    (answered : Transcript) (q : ReadRequest) :
    Relation.ReflTransGen Step ⟨r, none, answered⟩
      ⟨(call r q).2, none, answered ++ [(q, (call r q).1)]⟩ := by
  obtain ⟨asked, room⟩ : (r.ask q).Open ∧ 0 < (r.ask q).queueSize := by
    unfold Reader.ask
    split
    · next wait => exact ⟨{ isOpen with caller := .inl ⟨rfl, wait.2⟩ }, room⟩
    · exact ⟨isOpen, room⟩
  obtain ⟨result, ready, -⟩ := ready_run asked room
  have made : Step ⟨r, none, answered⟩ ⟨r.ask q, some q, answered⟩ := .ask q rfl
  have ran := reaches_run (r.ask q) (some q) answered
  have told : Step ⟨(r.ask q).run, some q, answered⟩ _ := .answer rfl ready
  exact (Relation.ReflTransGen.head made ran).tail told

variable {r : Reader σ} {result : Except Error Unit}

/-- A call that has all it needs gets its answer at once. -/
theorem call_of_ready {q : ReadRequest} (ready : r.caller = .ready result)
    (enough : q.fills = true → r.rest ≠ []) : call r q = r.answer q := by
  have same : r.ask q = r := if_neg fun wait => enough wait.1 wait.2
  have waits : r.callerStep? = none := by
    simp only [Reader.callerStep?, ready]
  rw [call, same, Reader.run]
  split
  · next r' step => cases waits.symm.trans step
  · simp only [ready]

theorem call_of_waiting {q : ReadRequest} (fills : q.fills = true) (empty : r.rest = []) :
    call r q = (Reader.run { r with caller := .filling }).answer q := by
  rw [call, Reader.ask, if_pos ⟨fills, empty⟩]

theorem fill_eq_call (isOpen : r.Open) (room : 0 < r.queueSize)
    (ready : r.caller = .ready result) : r.fill = call r .look := by
  unfold Reader.fill
  rw [if_neg (by simp [isOpen.closed])]
  by_cases empty : r.rest = []
  · have waiting : Reader.Open { r with caller := .filling } :=
      { isOpen with caller := .inl ⟨rfl, empty⟩ }
    obtain ⟨result, ready, told⟩ := ready_run waiting room
    rw [if_neg (Decidable.not_not.2 empty), call_of_waiting rfl empty, Reader.answer, Reader.shown]
    -- a failure is told only when nothing has come
    cases result with
    | ok =>
      simp only [Reader.result, ready]
      split
      · rfl
      · next none => rw [Decidable.not_not.1 none]
    | error failure =>
      have none : (Reader.run { r with caller := .filling }).rest = [] :=
        Decidable.byContradiction fun some => by cases told some
      simp only [Reader.result, ready]
      rw [if_neg (Decidable.not_not.2 none)]
  · rw [if_pos empty, call_of_ready ready (fun _ => empty), Reader.answer, Reader.shown,
      if_pos empty]

theorem readInto_eq_call (isOpen : r.Open) (room : 0 < r.queueSize)
    (ready : r.caller = .ready result) (n : Nat) : r.readInto n = call r (.read n) := by
  unfold Reader.readInto
  by_cases zero : n = 0
  · subst zero
    rw [call_of_ready ready (fun fills => absurd fills (by simp [ReadRequest.fills]))]
    simp only [isOpen.closed, Reader.answer, if_true, Bool.false_eq_true, if_false]
  · rw [if_neg zero, fill_eq_call isOpen room ready]
    by_cases empty : r.rest = []
    · rw [call_of_waiting rfl empty, call_of_waiting (by simpa [ReadRequest.fills]) empty]
      simp only [Reader.answer, if_neg zero]
      cases Reader.shown _ <;> rfl
    · rw [call_of_ready ready (fun _ => empty), call_of_ready ready (fun _ => empty)]
      simp only [Reader.answer, if_neg zero]
      cases Reader.shown _ <;> rfl

end Session

namespace Reader

theorem new_of_open {source : σ} {options : ReaderOptions} {r : Reader σ}
    (opened : Reader.open source options = .done r) :
    r = .new source options.blockSize options.queueSize ∧ 0 < options.queueSize := by
  unfold Reader.open at opened
  split at opened
  · cases opened
  · next valid =>
    split at opened
    · cases opened
      refine ⟨rfl, ?_⟩
      simp only [ReaderOptions.validate, bind, Except.bind, validateBlockSize,
        validateQueueSize] at valid
      grind
    · cases opened

variable [Source σ]

end Reader

end ParallelGzip
