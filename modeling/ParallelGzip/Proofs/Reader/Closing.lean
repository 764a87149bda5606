import ParallelGzip.Proofs.Reader.Session

set_option autoImplicit false

/-! # Closing a reader: it comes to an end, whatever its worker is doing

Whoever closes a reader waits for its worker, and the worker may be waiting for room in the queue.
The caller lets go of the queue first, and a worker that finds nobody to send to does not wait.
`Reader.Within` counts the steps this takes; how many they are does not depend on the source, but
that the worker comes to the end of one of them does: it decodes a chunk in one step. A reader goes
through three stages: it is open, it is being closed, it is over. `Usage` follows it through them
together with the cursor of the caller: the chunk taken last, and how much of it has been handed
over. -/

namespace ParallelGzip

variable {σ : Type} [Source σ]

namespace Reader

/-! ## Coming to something -/

/-- Whatever the order of the steps, this is reached in so many of them, and until then somebody can
    take one. -/
def Within (goal : Reader σ → Prop) : Nat → Reader σ → Prop
  | 0, r => goal r
  | n + 1, r => goal r ∨ ((∃ party r', r.step? party = some r') ∧
      ∀ party r', r.step? party = some r' → Within goal n r')

/-- What gets nearer with every step until it is there is reached. -/
theorem within_of_measure {goal : Reader σ → Prop} (keeps : Reader σ → Prop)
    (measure : Reader σ → Nat) (away : ∀ r, keeps r → 0 < measure r)
    (progress : ∀ r, keeps r → ∃ party r', r.step? party = some r')
    (nearer : ∀ r, keeps r → ∀ party r', r.step? party = some r' →
      goal r' ∨ (keeps r' ∧ measure r' < measure r))
    {n : Nat} {r : Reader σ} (holds : keeps r) (enough : measure r ≤ n) : r.Within goal n := by
  induction n generalizing r with
  | zero => exact absurd (away r holds) (Nat.not_lt.2 enough)
  | succ n ih =>
    refine .inr ⟨progress r holds, ?_⟩
    intro party r' step
    rcases nearer r holds party r' step with there | ⟨holds', less⟩
    · cases n with
      | zero => exact there
      | succ n => exact .inl there
    · exact ih holds' (by omega)

/-- At most so many steps are left to a worker that puts nothing more into the queue. -/
def workerLeft : DecoderPhase → Nat
  | .checking => 4
  | .decoding => 3
  | .sending _ _ => 2
  | .recording _ => 2
  | .closing => 1
  | .exited => 0

theorem workerLeft_le (phase : DecoderPhase) : workerLeft phase ≤ 4 := by
  cases phase <;> simp [workerLeft]

theorem workerLeft_pos {phase : DecoderPhase} (present : phase ≠ .exited) :
    0 < workerLeft phase := by
  cases phase with
  | exited => exact absurd rfl present
  | _ => simp [workerLeft]

/-- A decoded chunk, or its end, brings the worker on. -/
theorem workerLeft_afterDecoding (chunk : Array UInt8) (ending : Ending) :
    workerLeft (afterDecoding chunk ending) < 3 := by
  cases ending with
  | panicked => simp [afterDecoding, workerLeft]
  | ended | failed =>
    rw [afterDecoding]
    split <;> simp [workerLeft]

theorem afterDecoding_ne_exited (chunk : Array UInt8) (ending : Ending) :
    afterDecoding chunk ending ≠ .exited := by
  cases ending with
  | panicked => simp [afterDecoding]
  | ended | failed =>
    rw [afterDecoding]
    split <;> simp

/-! ## A caller that is blocked -/

/-- A caller that waits for a chunk, in front of an empty queue. -/
structure Blocked (r : Reader σ) : Prop where
  isOpen : r.Open
  room : 0 < r.queueSize
  caller : r.caller = .filling
  empty : r.queue = []
  present : r.worker ≠ .exited

/-- Whatever the worker of a blocked caller does, it puts a chunk into the queue, or lets go of it,
    or gets nearer to that. -/
theorem Blocked.step {r r' : Reader σ} {party : Party} (blocked : r.Blocked)
    (step : r.step? party = some r') :
    (r'.queue ≠ [] ∨ r'.worker = .exited) ∨
      (r'.Blocked ∧ workerLeft r'.worker < workerLeft r.worker) := by
  obtain ⟨isOpen, room, caller, empty, present⟩ := blocked
  cases party with
  | caller =>
    cases move_of_callerStep? step with
    | take _ queue? =>
      rw [empty] at queue?
      cases queue?
    | finish _ _ exited => exact absurd exited present
    | stop phase | detach phase | join phase =>
      rw [caller] at phase
      cases phase
  | worker =>
    have move := move_of_workerStep? step
    have after := isOpen.workerMove move
    cases move with
    | check phase =>
      refine .inr ⟨⟨after, room, caller, empty, ?_⟩, ?_⟩ <;>
        simp [isOpen.stop, phase, workerLeft]
    | @decode chunk ending _ phase =>
      have less := workerLeft_afterDecoding chunk ending
      refine .inr ⟨⟨after, room, caller, empty, ?_⟩, by rwa [phase]⟩
      exact afterDecoding_ne_exited chunk ending
    | abandon phase detached =>
      rw [isOpen.attached] at detached
      cases detached
    | send => exact .inl (.inl (by simp))
    | record phase =>
      exact .inr ⟨⟨after, room, caller, empty, nofun⟩, by simp [phase, workerLeft]⟩
    | exit => exact .inl (.inr rfl)

theorem Blocked.served {r : Reader σ} (blocked : r.Blocked) :
    r.Within (fun r => r.queue ≠ [] ∨ r.worker = .exited) 4 :=
  within_of_measure Blocked (fun r => workerLeft r.worker)
    (fun _ blocked => workerLeft_pos blocked.present)
    (fun _ blocked => exists_step?_of_filling blocked.room blocked.caller)
    (fun _ blocked _ _ => blocked.step) blocked (workerLeft_le r.worker)

/-! ## The stages of being closed -/

/-- A reader that is being closed. -/
structure Closing (r : Reader σ) : Prop where
  closed : r.closed = true
  caller : r.caller = .stopping ∨ r.caller = .detaching ∨
    (r.caller = .joining ∧ r.attached = false)

/-- A reader that has been closed: its worker is gone, and nothing is left of the chunk. -/
structure Over (r : Reader σ) : Prop where
  closed : r.closed = true
  returned : ∃ result, r.caller = .ready result
  worker : r.worker = .exited
  rest : r.rest = []

/-- So many steps are left to a caller that closes a reader. -/
def callerLeft : CallerPhase → Nat
  | .stopping => 3
  | .detaching => 2
  | .joining => 1
  | _ => 0

/-- At most so many steps are left until a reader that is being closed is. A place in the queue is
    worth the three steps that it takes the worker to fill it. -/
def closingLeft (r : Reader σ) : Nat :=
  callerLeft r.caller + workerLeft r.worker +
    if r.attached then 3 * (r.queueSize - r.queue.length) else 0

omit [Source σ] in
theorem closingLeft_le (r : Reader σ) : r.closingLeft ≤ 3 * r.queueSize + 7 := by
  have worker := workerLeft_le r.worker
  have caller : callerLeft r.caller ≤ 3 := by
    cases r.caller <;> simp [callerLeft]
  unfold closingLeft
  split <;> omega

namespace Closing

variable {r r' : Reader σ} {party : Party}

/-- Somebody can always take a step: a worker that has nobody to send to does not wait for room. -/
theorem progress (closing : r.Closing) : ∃ party r', r.step? party = some r' := by
  rcases closing.caller with phase | phase | ⟨phase, detached⟩
  · exact ⟨.caller, _, by simp only [step?, callerStep?, phase]; rfl⟩
  · exact ⟨.caller, _, by simp only [step?, callerStep?, phase]; rfl⟩
  · cases workerStep : r.workerStep? with
    | some r' => exact ⟨.worker, r', workerStep⟩
    | none =>
      rcases waits_of_workerStep? workerStep with ⟨chunk, failure, -, attached, -⟩ | exited
      · rw [attached] at detached
        cases detached
      · exact ⟨.caller, _, by simp only [step?, callerStep?, phase, exited]; rfl⟩

omit [Source σ] in
theorem closingLeft_pos (closing : r.Closing) : 0 < r.closingLeft := by
  have caller : 0 < callerLeft r.caller := by
    rcases closing.caller with phase | phase | ⟨phase, -⟩ <;> simp [phase, callerLeft]
  unfold closingLeft
  omega

theorem workerMove (closing : r.Closing) (move : r.WorkerMove r') : r'.Closing := by
  obtain ⟨closed, caller⟩ := closing
  cases move <;> exact ⟨closed, caller⟩

/-- Every step brings the end nearer, and nothing is handed over any more. -/
theorem step (closing : r.Closing) (step : r.step? party = some r') :
    r'.position = r.position ∧ (r'.Over ∨ (r'.Closing ∧ r'.closingLeft < r.closingLeft)) := by
  cases party with
  | caller =>
    obtain ⟨closed, caller⟩ := closing
    cases move_of_callerStep? step with
    | take phase | finish phase => simp [phase] at caller
    | stop phase =>
      refine ⟨rfl, .inr ⟨⟨closed, .inr (.inl rfl)⟩, ?_⟩⟩
      simp [closingLeft, phase, callerLeft]
    | detach phase =>
      refine ⟨rfl, .inr ⟨⟨closed, .inr (.inr ⟨rfl, rfl⟩)⟩, ?_⟩⟩
      simp only [closingLeft, phase, callerLeft, Bool.false_eq_true, if_false]
      omega
    | join phase exited => exact ⟨rfl, .inl ⟨closed, ⟨_, rfl⟩, exited, rfl⟩⟩
  | worker =>
    have move := move_of_workerStep? step
    refine ⟨move.frame.2.2.1, .inr ⟨closing.workerMove move, ?_⟩⟩
    cases move with
    | check phase =>
      simp only [closingLeft, phase]
      split <;> simp [workerLeft]
    | @decode chunk ending _ phase =>
      have less := workerLeft_afterDecoding chunk ending
      have before : workerLeft r.worker = 3 := by rw [phase, workerLeft]
      simp only [closingLeft]
      omega
    | abandon phase | record phase | exit phase =>
      simp only [closingLeft, phase, workerLeft]
      omega
    | @send chunk failure phase attached room =>
      -- it takes up a place and may go on to fill another one
      have less : workerLeft (afterSending failure) < workerLeft r.worker + 3 := by
        rw [phase]
        cases failure <;> simp [afterSending, workerLeft]
      simp only [closingLeft, attached, if_true, List.length_append, List.length_singleton]
      omega

/-- Closing comes to an end, whatever the order of the steps, and however much the source still has
    to give. -/
theorem comes (closing : r.Closing) :
    r.Within (fun r' => r'.Over ∧ r'.position = r.position) (3 * r.queueSize + 7) := by
  refine within_of_measure (fun r' => r'.Closing ∧ r'.position = r.position) closingLeft
    (fun _ keeps => keeps.1.closingLeft_pos) (fun _ keeps => keeps.1.progress) ?_ ⟨closing, rfl⟩
    r.closingLeft_le
  rintro r₁ ⟨closing, same⟩ party r₂ step
  obtain ⟨position, gone | ⟨closing', less⟩⟩ := closing.step step
  · exact .inl ⟨gone, position.trans same⟩
  · exact .inr ⟨⟨closing', position.trans same⟩, less⟩

end Closing

namespace Over

variable {r : Reader σ}

/-- Nobody can take a step when it is over. -/
theorem step?_eq_none (gone : r.Over) (party : Party) : r.step? party = none := by
  obtain ⟨result, ready⟩ := gone.returned
  cases party with
  | caller => simp only [step?, callerStep?, ready]
  | worker => simp only [step?, workerStep?, gone.worker]

end Over

/-- The call that closes a reader comes to its end. -/
theorem Closing.over_run {r : Reader σ} (closing : r.Closing) :
    r.run.Over ∧ r.run.position = r.position := by
  have kept : ∀ {r₁ r₂ : Reader σ} {party : Party},
      (r₁.Closing ∨ r₁.Over) ∧ r₁.position = r.position → r₁.step? party = some r₂ →
        (r₂.Closing ∨ r₂.Over) ∧ r₂.position = r.position := by
    rintro r₁ r₂ party ⟨closing | gone, same⟩ step
    · obtain ⟨position, gone | ⟨closing', -⟩⟩ := closing.step step
      · exact ⟨.inr gone, position.trans same⟩
      · exact ⟨.inl closing', position.trans same⟩
    · cases step.symm.trans (gone.step?_eq_none party)
  have progress : ∀ {r' : Reader σ}, (r'.Closing ∨ r'.Over) ∧ r'.position = r.position →
      (∃ result, r'.caller = .ready result) ∨ ∃ party r'', r'.step? party = some r'' := by
    rintro r' ⟨closing | gone, -⟩
    · exact .inr closing.progress
    · exact .inl gone.returned
  obtain ⟨⟨stage, position⟩, result, ready⟩ := keeps_run _ kept progress ⟨.inl closing, rfl⟩
  refine ⟨stage.resolve_left ?_, position⟩
  intro closing
  have caller := closing.caller
  simp [ready] at caller

/-! ## What a closed reader answers -/

/-- What a closed reader does when it is used: it refuses to give anything, an empty request
    included, and nothing of it changes. -/
structure Refuses (r : Reader σ) : Prop where
  readInto : ∀ n, r.readInto n = (.error .closed, r)
  fill : r.fill = (.error .closed, r)
  consume : ∀ n, r.consume n = r
  close : r.close = r
  read : ∀ n, Source.read r n = (.failed (Error.closed.toIo true), r)
  fillBuffer : BufferedSource.fillBuffer r = (.failed (Error.closed.toIo true), r)

theorem Over.refuses {r : Reader σ} (gone : r.Over) : r.Refuses := by
  have fill : r.fill = (.error .closed, r) := by rw [fill, if_pos gone.closed]
  have readInto : ∀ n, r.readInto n = (.error .closed, r) := by
    intro n
    rw [readInto, fill, if_pos gone.closed, ite_self]
  refine ⟨readInto, fill, ?consume, by rw [close, if_pos gone.closed], ?read, ?fillBuffer⟩
  case consume =>
    intro n
    cases r
    obtain rfl := gone.rest
    simp [Reader.consume]
  case read =>
    intro n
    show (toReadResult (r.readInto n).1, (r.readInto n).2) = _
    rw [readInto]
    rfl
  case fillBuffer =>
    show (toReadResult r.fill.1, r.fill.2) = _
    rw [fill]
    rfl

end Reader

/-! ## A reader in use, with its cursor -/

/-- A reader and the cursor of its caller. -/
structure Usage (σ : Type) where
  reader : Reader σ
  /-- The chunk taken last. -/
  chunk : Bytes
  /-- How much of it has been handed over. -/
  consumed : Nat

namespace Usage

/-- The reader before the first call. -/
def start (r : Reader σ) : Usage σ := ⟨r, [], 0⟩

/-- What a step of the caller does to the cursor: it stands at the beginning of a chunk that has been
    taken, and a reader that has been closed has none. -/
def moved (u : Usage σ) (r : Reader σ) : Usage σ :=
  match u.reader.caller, u.reader.queue with
  | .filling, chunk :: _ => ⟨r, chunk, 0⟩
  | .joining, _ => ⟨r, [], 0⟩
  | _, _ => { u with reader := r }

omit [Source σ] in
theorem moved_of_stays (u : Usage σ) {r : Reader σ}
    (filling : u.reader.caller = .filling → u.reader.queue = [])
    (joining : u.reader.caller ≠ .joining) : u.moved r = { u with reader := r } := by
  unfold moved
  split
  · next phase queue? =>
    rw [filling phase] at queue?
    cases queue?
  · next phase => exact absurd phase joining
  · rfl

/-- What can happen next: a party takes a step, or, when no call is running, the caller asks for a
    chunk because it has used up the last one, hands over some of it, or closes the reader. -/
inductive Step : Usage σ → Usage σ → Prop
  | worker {u : Usage σ} {r : Reader σ} (step : u.reader.step? .worker = some r) :
      Step u { u with reader := r }
  | caller {u : Usage σ} {r : Reader σ} (step : u.reader.step? .caller = some r) :
      Step u (u.moved r)
  | fill {u : Usage σ} {result : Except Error Unit} (ready : u.reader.caller = .ready result)
      (isOpen : u.reader.closed = false) (used : u.chunk.length ≤ u.consumed) :
      Step u { u with reader := { u.reader with caller := .filling } }
  | consume {u : Usage σ} {result : Except Error Unit} (n : Nat)
      (ready : u.reader.caller = .ready result) :
      Step u { u with
        reader := u.reader.consume n
        consumed := u.consumed + min n (u.chunk.length - u.consumed) }
  | close {u : Usage σ} {result : Except Error Unit} (ready : u.reader.caller = .ready result)
      (isOpen : u.reader.closed = false) :
      Step u { u with reader := { u.reader with closed := true, caller := .stopping } }

/-- What every use of a reader keeps to: the cursor is inside the chunk and shows what is left, and
    the reader is in one of its three stages. -/
structure Kept (u : Usage σ) : Prop where
  room : 0 < u.reader.queueSize
  inside : u.consumed ≤ u.chunk.length
  rest : u.reader.rest = u.chunk.drop u.consumed
  stage : u.reader.Open ∨ u.reader.Closing ∨ (u.reader.Over ∧ u.chunk = [])

namespace Kept

variable {u u' : Usage σ}

omit [Source σ] in
theorem start {r : Reader σ} (isOpen : r.Open) (room : 0 < r.queueSize) (rest : r.rest = []) :
    (Usage.start r).Kept :=
  ⟨room, Nat.le_refl 0, rest, .inl isOpen⟩

omit [Source σ] in
/-- A reader that is not closed is open. -/
theorem isOpen (kept : u.Kept) (unclosed : u.reader.closed = false) : u.reader.Open := by
  rcases kept.stage with isOpen | closing | ⟨gone, -⟩
  · exact isOpen
  · cases unclosed.symm.trans closing.closed
  · cases unclosed.symm.trans gone.closed

omit [Source σ] in
/-- A closed reader whose call has returned is over. -/
theorem gone (kept : u.Kept) (closed : u.reader.closed = true) {result : Except Error Unit}
    (ready : u.reader.caller = .ready result) : u.reader.Over ∧ u.chunk = [] := by
  rcases kept.stage with isOpen | closing | gone
  · cases closed.symm.trans isOpen.closed
  · have caller := closing.caller
    simp [ready] at caller
  · exact gone

/-- The worker does not touch the cursor. -/
theorem worker (kept : u.Kept) {r : Reader σ} (step : u.reader.step? .worker = some r) :
    Kept { u with reader := r } := by
  have move := Reader.move_of_workerStep? step
  obtain ⟨-, rest, -, queueSize⟩ := move.frame
  refine ⟨queueSize ▸ kept.room, kept.inside, rest.trans kept.rest, ?_⟩
  rcases kept.stage with isOpen | closing | ⟨gone, -⟩
  · exact .inl (isOpen.workerMove move)
  · exact .inr (.inl (closing.workerMove move))
  · cases step.symm.trans (gone.step?_eq_none .worker)

/-- The caller puts the cursor on the chunk it takes, and off the last one when it is done. -/
theorem caller (kept : u.Kept) {r : Reader σ} (step : u.reader.step? .caller = some r) :
    (u.moved r).Kept := by
  have move := Reader.move_of_callerStep? step
  obtain ⟨room, inside, rest, isOpen | closing | ⟨gone, -⟩⟩ := kept
  · have after := isOpen.callerMove move
    have caller := isOpen.caller
    cases move with
    | take phase queue? =>
      simp only [moved, phase, queue?]
      exact ⟨room, Nat.zero_le _, rfl, .inl after⟩
    | finish phase empty =>
      rw [u.moved_of_stays (fun _ => empty) (by simp [phase])]
      exact ⟨room, inside, rest, .inl after⟩
    | stop phase | detach phase | join phase => simp [phase] at caller
  · have caller := closing.caller
    cases move with
    | take phase | finish phase => simp [phase] at caller
    | stop phase =>
      rw [u.moved_of_stays (by simp [phase]) (by simp [phase])]
      exact ⟨room, inside, rest, .inr (.inl ⟨closing.closed, .inr (.inl rfl)⟩)⟩
    | detach phase =>
      rw [u.moved_of_stays (by simp [phase]) (by simp [phase])]
      exact ⟨room, inside, rest, .inr (.inl ⟨closing.closed, .inr (.inr ⟨rfl, rfl⟩)⟩)⟩
    | join phase exited =>
      simp only [moved, phase]
      exact ⟨room, Nat.le_refl _, rfl, .inr (.inr ⟨⟨closing.closed, ⟨_, rfl⟩, exited, rfl⟩, rfl⟩)⟩
  · cases step.symm.trans (gone.step?_eq_none .caller)

/-- A reader that has been closed stays as it is. -/
theorem eq_of_step (kept : u.Kept) (gone : u.reader.Over) (none : u.chunk = [])
    (step : Step u u') : u' = u := by
  cases step with
  | worker step => cases step.symm.trans (gone.step?_eq_none .worker)
  | caller step => cases step.symm.trans (gone.step?_eq_none .caller)
  | fill _ isOpen | close _ isOpen => cases isOpen.symm.trans gone.closed
  | consume n =>
    have inside := kept.inside
    rw [none, List.length_nil] at inside
    have still : u.consumed + min n (u.chunk.length - u.consumed) = u.consumed := by
      rw [none, List.length_nil]
      omega
    rw [gone.refuses.consume, still]

theorem step (kept : u.Kept) (step : Step u u') : u'.Kept := by
  cases step with
  | worker step => exact kept.worker step
  | caller step => exact kept.caller step
  | fill ready unclosed used =>
    have isOpen := kept.isOpen unclosed
    have nothing : u.reader.rest = [] := kept.rest.trans (List.drop_eq_nil_of_le used)
    exact ⟨kept.room, kept.inside, kept.rest, .inl { isOpen with caller := .inl ⟨rfl, nothing⟩ }⟩
  | consume n ready =>
    have inside := kept.inside
    refine ⟨kept.room, by dsimp only; omega, ?_, ?_⟩
    · simp only [Reader.consume, kept.rest, List.drop_drop]
      by_cases enough : n ≤ u.chunk.length - u.consumed
      · rw [Nat.min_eq_left enough]
      · rw [List.drop_eq_nil_of_le (by omega), List.drop_eq_nil_of_le (by omega)]
    · rcases kept.stage with isOpen | closing | ⟨gone, none⟩
      · exact .inl (isOpen.consume ready n)
      · exact .inr (.inl ⟨closing.closed, closing.caller⟩)
      · rw [gone.refuses.consume]
        exact .inr (.inr ⟨gone, none⟩)
  | close ready unclosed =>
    exact ⟨kept.room, kept.inside, kept.rest, .inr (.inl ⟨rfl, .inl rfl⟩)⟩

end Kept

theorem kept_of_reaches {u u' : Usage σ} (kept : u.Kept)
    (reached : Relation.ReflTransGen Step u u') : u'.Kept := by
  induction reached with
  | refl => exact kept
  | tail _ step ih => exact ih.step step

end Usage

namespace Reader

/-- Closing a reader always works, on a source that comes to an end. Whatever its caller has done
    with it so far and whatever steps have been taken, caller and worker never both wait, and the
    cursor is inside the chunk taken last and shows what is left of it. A caller that waits for a
    chunk gets one, or sees the queue let go of, within four steps. An open reader can be closed: this
    takes a number of steps, in any order, that does not depend on the source, after which the worker
    is gone and the position is the same; the call to close takes these steps. A reader that has been
    closed refuses everything and stays as it is. -/
theorem closing_works {source : σ} {options : ReaderOptions} {r : Reader σ} {u : Usage σ}
    (opened : Reader.open source options = .done r)
    (reached : Relation.ReflTransGen Usage.Step (Usage.start r) u) :
    ((∃ result, u.reader.caller = .ready result) ∨
        ∃ party r', u.reader.step? party = some r') ∧
      (u.consumed ≤ u.chunk.length ∧ u.reader.rest = u.chunk.drop u.consumed) ∧
      (u.reader.caller = .filling → u.reader.queue = [] → u.reader.worker ≠ .exited →
        u.reader.Within (fun r => r.queue ≠ [] ∨ r.worker = .exited) 4) ∧
      (∀ result, u.reader.caller = .ready result → u.reader.closed = false →
        Within (fun r => r.Over ∧ r.position = u.reader.position) (3 * u.reader.queueSize + 7)
            { u.reader with closed := true, caller := .stopping } ∧
          u.reader.close.Over ∧ u.reader.close.position = u.reader.position) ∧
      (u.reader.closed = true → (∀ result, u.reader.caller ≠ .ready result) →
        u.reader.Within (fun r => r.Over ∧ r.position = u.reader.position)
          (3 * u.reader.queueSize + 7)) ∧
      ∀ result, u.reader.caller = .ready result → u.reader.closed = true →
        u.reader.Over ∧ u.chunk = [] ∧ u.reader.Refuses ∧ ∀ u', Usage.Step u u' → u' = u := by
  obtain ⟨rfl, room⟩ := new_of_open opened
  have isOpen : (Reader.new source options.blockSize options.queueSize).Open :=
    ⟨rfl, rfl, rfl, .inr rfl, .inr ⟨_, rfl, fun _ => rfl⟩⟩
  have kept := Usage.kept_of_reaches (.start isOpen room rfl) reached
  refine ⟨?progress, ⟨kept.inside, kept.rest⟩, ?blocked, ?close, ?closing, ?closed⟩
  case progress =>
    rcases kept.stage with isOpen | closing | ⟨gone, -⟩
    · rcases isOpen.caller with ⟨filling, -⟩ | ⟨result, ready, -⟩
      · exact .inr (exists_step?_of_filling kept.room filling)
      · exact .inl ⟨result, ready⟩
    · exact .inr closing.progress
    · exact .inl gone.returned
  case blocked =>
    intro filling empty present
    rcases kept.stage with isOpen | closing | ⟨gone, -⟩
    · exact Blocked.served ⟨isOpen, kept.room, filling, empty, present⟩
    · have caller := closing.caller
      simp [filling] at caller
    · exact absurd gone.worker present
  case close =>
    intro result ready unclosed
    have closing : Closing { u.reader with closed := true, caller := .stopping } := ⟨rfl, .inl rfl⟩
    have call : u.reader.close = run { u.reader with closed := true, caller := .stopping } := by
      rw [close, unclosed, if_neg Bool.false_ne_true]
    rw [call]
    exact ⟨closing.comes, closing.over_run⟩
  case closing =>
    intro closed running
    rcases kept.stage with isOpen | closing | ⟨gone, -⟩
    · cases closed.symm.trans isOpen.closed
    · exact closing.comes
    · obtain ⟨result, ready⟩ := gone.returned
      exact absurd ready (running result)
  case closed =>
    intro result ready closed
    obtain ⟨gone, none⟩ := kept.gone closed ready
    exact ⟨gone, none, gone.refuses, fun u' => kept.eq_of_step gone none⟩

/-- A reader of one byte: a call to read waits while the worker is about to decode, and it gets an
    answer; a reader that is closed at once, before the worker has looked, refuses everything. -/
theorem closing_works_one_byte :
    let source : ScriptedSource := { data := [0x1f] }
    let r := Reader.new source 65536 2
    Reader.open source { blockSize := 65536, queueSize := 2 } = .done r ∧
      (∃ u, Relation.ReflTransGen Usage.Step (Usage.start r) u ∧ u.reader.caller = .filling ∧
        u.reader.worker = .decoding ∧
        u.reader.Within (fun r => r.queue ≠ [] ∨ r.worker = .exited) 4) ∧
      ∃ u, Relation.ReflTransGen Usage.Step (Usage.start r) u ∧ u.reader.closed = true ∧
        u.reader.worker = .exited ∧ u.reader.Refuses := by
  intro source r
  have opened : Reader.open source { blockSize := 65536, queueSize := 2 } = .done r := rfl
  have fresh : Relation.ReflTransGen Usage.Step (Usage.start r) (Usage.start r) := .refl
  refine ⟨opened, ?reading, ?closed⟩
  case reading =>
    have asked := fresh.tail (.fill rfl rfl (Nat.le_refl 0))
    have looked := asked.tail (.worker rfl)
    exact ⟨_, looked, rfl, rfl, (closing_works opened looked).2.2.1 rfl rfl nofun⟩
  case closed =>
    have closing := fresh.tail (.close rfl rfl)
    have told := closing.tail (.caller rfl)
    have looked := told.tail (.worker rfl)
    have exited := looked.tail (.worker rfl)
    have detached := exited.tail (.caller rfl)
    have joined := detached.tail (.caller rfl)
    obtain ⟨-, -, -, -, -, closed⟩ := closing_works opened joined
    exact ⟨_, joined, rfl, rfl, (closed _ rfl rfl).2.2.1⟩

end Reader

end ParallelGzip
