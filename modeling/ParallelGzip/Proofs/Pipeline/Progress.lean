import ParallelGzip.Pipeline.Progress

set_option autoImplicit false

/-! # Progress: no wakeup is lost

Threads call for the count and for the flag in any order, and each of them takes one step at a time:
what happened is a history, the latest event first. Every event is a move of one thread, and what is
known of a thread in a phase (`Monitor.Knows`) is kept by the moves of all others. A thread that
sleeps although it should not is due a notification by one that is about to notify, and nobody can
prevent that: the notification stays pending until the sleeper is awake, and neither the thread that
has to give it nor the one that holds the lock is ever kept waiting by others. -/

namespace ParallelGzip

namespace Progress

/-! ## Histories -/

/-- What can happen to threads that share a monitor. -/
inductive Event
  | step (thread : Nat)
  /-- A sleeper wakes for no reason. -/
  | wake (thread : Nat)
  | begin (thread : Nat) (request : Request)

/-- The thread that something happens to. -/
def Event.thread : Event → Nat
  | step thread | wake thread | begin thread _ => thread

/-- The last call that a thread has begun. -/
def lastCall (thread : Nat) : List Event → Option Request
  | [] => none
  | .begin other request :: history =>
    if other = thread then some request else lastCall thread history
  | _ :: history => lastCall thread history

/-- A call that tells everybody to stop. -/
def Request.Stops : Request → Prop
  | fail _ | cancel => True
  | _ => False

namespace Monitor

/-- What an event makes of a monitor. -/
def next? (m : Monitor) : Event → Option Monitor
  | .step i => m.step? i
  | .wake i => m.wake? i
  | .begin i request => m.begin? i request

/-- A history that leads from one monitor to another, the latest event first. -/
inductive Run (m : Monitor) : List Event → Monitor → Prop
  | nil : Run m [] m
  | cons {history : List Event} {event : Event} {m' m'' : Monitor} (before : Run m history m')
      (next : m'.next? event = some m'') : Run m (event :: history) m''

/-! ## Moves -/

/-- From the one phase to the other a thread takes the lock. -/
inductive Acquires : Phase → Phase → Prop
  | enter (target : Nat) : Acquires (.entering target) (.comparing target)
  | awake (target : Nat) : Acquires (.awake target) (.comparing target)
  | advance (count : Nat) : Acquires (.advancing count) (.storing count)
  | cancel : Acquires .cancelling .notifying

/-- From the one phase to the other a thread lets go of the lock. -/
inductive Releases : Phase → Phase → Prop
  | sleep (target : Nat) : Releases (.dozing target) (.asleep target)
  | leave (result : Bool) : Releases (.leaving result) (.idle (some result))
  | done : Releases .releasing (.idle none)

/-- Everything that can happen to a thread, from which phase to which. -/
inductive Move (m : Monitor) (i : Nat) : Event → Phase → Phase → Monitor → Prop
  | acquire {p q : Phase} (acquires : Acquires p q) (free : m.locked = false) :
      Move m i (.step i) p q { m.goOn i q with locked := true }
  | reached {target : Nat} (enough : target ≤ m.count) :
      Move m i (.step i) (.comparing target) (.leaving true) (m.goOn i (.leaving true))
  | short {target : Nat} (few : m.count < target) :
      Move m i (.step i) (.comparing target) (.looking target) (m.goOn i (.looking target))
  | told {target : Nat} (cancelled : m.cancelled = true) :
      Move m i (.step i) (.looking target) (.leaving false) (m.goOn i (.leaving false))
  | untold {target : Nat} (going : m.cancelled = false) :
      Move m i (.step i) (.looking target) (.dozing target) (m.goOn i (.dozing target))
  | release {p q : Phase} (releases : Releases p q) : Move m i (.step i) p q (m.release i q)
  | store {count : Nat} :
      Move m i (.step i) (.storing count) .notifying { m.goOn i .notifying with count := count }
  | record {failure : Error} :
      Move m i (.step i) (.recording failure) .flagging
        { m.goOn i .flagging with failure := m.failure.or (some failure) }
  | flag :
      Move m i (.step i) .flagging .cancelling { m.goOn i .cancelling with cancelled := true }
  | notify :
      Move m i (.step i) .notifying .releasing
        { m with threads := (m.threads.map Phase.woken).set i .releasing }
  | wake {target : Nat} :
      Move m i (.wake i) (.asleep target) (.awake target) (m.goOn i (.awake target))
  | begin {result : Option Bool} {request : Request} :
      Move m i (.begin i request) (.idle result) request.first (m.goOn i request.first)

variable {m m' : Monitor} {i j : Nat} {event : Event} {p q r : Phase} {history : List Event}

theorem acquire?_eq_some (taken : m.acquire? i q = some m') :
    m.locked = false ∧ m' = { m.goOn i q with locked := true } := by
  unfold acquire? at taken
  split at taken
  · cases taken
  · next free => exact ⟨by simpa using free, (Option.some.inj taken).symm⟩

theorem move_of_step? (step : m.step? i = some m') :
    ∃ p q, m.threads[i]? = some p ∧ Move m i (.step i) p q m' := by
  unfold step? at step
  split at step
  · cases step
  next phase at_phase =>
  have acquire : ∀ {q : Phase}, Acquires phase q → m.acquire? i q = some m' →
      ∃ p q, m.threads[i]? = some p ∧ Move m i (.step i) p q m' := by
    intro q acquires taken
    obtain ⟨free, rfl⟩ := acquire?_eq_some taken
    exact ⟨phase, q, at_phase, .acquire acquires free⟩
  split at step
  case h_1 | h_6 => cases step
  case h_2 => exact acquire (.enter _) step
  case h_7 => exact acquire (.awake _) step
  case h_9 => exact acquire (.advance _) step
  case h_13 => exact acquire .cancel step
  all_goals cases step
  case h_3 target =>
    split
    · next enough => exact ⟨_, _, at_phase, .reached enough⟩
    · next few => exact ⟨_, _, at_phase, .short (Nat.lt_of_not_le few)⟩
  case h_4 target =>
    split
    · next cancelled => exact ⟨_, _, at_phase, .told cancelled⟩
    · next going => exact ⟨_, _, at_phase, .untold (by simpa using going)⟩
  case h_5 => exact ⟨_, _, at_phase, .release (.sleep _)⟩
  case h_8 => exact ⟨_, _, at_phase, .release (.leave _)⟩
  case h_10 => exact ⟨_, _, at_phase, .store⟩
  case h_11 => exact ⟨_, _, at_phase, .record⟩
  case h_12 => exact ⟨_, _, at_phase, .flag⟩
  case h_14 => exact ⟨_, _, at_phase, .notify⟩
  case h_15 => exact ⟨_, _, at_phase, .release .done⟩

theorem move_of_next? (next : m.next? event = some m') :
    ∃ p q, m.threads[event.thread]? = some p ∧ Move m event.thread event p q m' := by
  cases event with
  | step i => exact move_of_step? next
  | wake i =>
    rw [next?, wake?] at next
    split at next
    · next target asleep =>
      cases next
      exact ⟨_, _, asleep, .wake⟩
    · cases next
  | begin i request =>
    rw [next?, begin?] at next
    split at next
    · next result idle =>
      cases next
      exact ⟨_, _, idle, .begin⟩
    · cases next

/-- The thread that moves is in its new phase. -/
theorem Move.own (move : Move m i event p q m') (at_p : m.threads[i]? = some p) :
    m'.threads[i]? = some q := by
  have inside : i < m.threads.length := (List.getElem?_eq_some_iff.1 at_p).1
  cases move <;> simp [goOn, Monitor.release, inside]

/-- A notification wakes the other threads; no other move touches them. -/
theorem Move.others (move : Move m i event p q m') (ne : j ≠ i) :
    m'.threads[j]? =
      if p = .notifying then (m.threads[j]?).map Phase.woken else m.threads[j]? := by
  cases move with
  | acquire acquires => cases acquires <;> simp [goOn, List.getElem?_set_ne ne.symm]
  | release releases =>
    cases releases <;> simp [goOn, Monitor.release, List.getElem?_set_ne ne.symm]
  | notify => simp [List.getElem?_set_ne ne.symm]
  | _ => simp [goOn, List.getElem?_set_ne ne.symm]

theorem Move.stays (move : Move m i event p q m') (ne : j ≠ i) (at_r : m.threads[j]? = some r)
    (waking : r.woken = r) : m'.threads[j]? = some r := by
  rw [move.others ne, at_r, Option.map_some, waking, ite_self]

/-! ## The lock -/

/-- A thread holds the lock. -/
def Holds (m : Monitor) (i : Nat) : Prop :=
  ∃ p, m.threads[i]? = some p ∧ p.holdsLock = true

/-- The lock is taken just if a thread holds it, and no two do. -/
structure Exclusive (m : Monitor) : Prop where
  taken : ∀ i, m.Holds i → m.locked = true
  held : m.locked = true → ∃ i, m.Holds i
  alone : ∀ i j, m.Holds i → m.Holds j → i = j

theorem Holds.iff_of_phase (at_p : m.threads[i]? = some p) : m.Holds i ↔ p.holdsLock = true := by
  constructor
  · rintro ⟨p', at_p', holds⟩
    cases at_p.symm.trans at_p'
    exact holds
  · exact fun holds => ⟨p, at_p, holds⟩

theorem holdsLock_woken (p : Phase) : p.woken.holdsLock = p.holdsLock := by
  cases p <;> rfl

/-- Nobody gets or loses the lock by a move of another thread. -/
theorem Move.holds_iff (move : Move m i event p q m') (ne : j ≠ i) : m'.Holds j ↔ m.Holds j := by
  unfold Holds
  rw [move.others ne]
  split
  · simp only [Option.map_eq_some_iff]
    constructor
    · rintro ⟨_, ⟨r, at_r, rfl⟩, holds⟩
      exact ⟨r, at_r, holdsLock_woken r ▸ holds⟩
    · rintro ⟨r, at_r, holds⟩
      exact ⟨r.woken, ⟨r, at_r, rfl⟩, (holdsLock_woken r).trans holds⟩
  · exact Iff.rfl

/-- What a move does with the lock. -/
theorem Move.locked (move : Move m i event p q m') :
    (p.holdsLock = false ∧ m.locked = false ∧ q.holdsLock = true ∧ m'.locked = true) ∨
      (p.holdsLock = true ∧ q.holdsLock = false ∧ m'.locked = false) ∨
      (q.holdsLock = p.holdsLock ∧ m'.locked = m.locked) := by
  cases move with
  | acquire acquires free => cases acquires <;> exact .inl ⟨rfl, free, rfl, rfl⟩
  | release releases => cases releases <;> exact .inr (.inl ⟨rfl, rfl, rfl⟩)
  | @begin result request => cases request <;> exact .inr (.inr ⟨rfl, rfl⟩)
  | _ => exact .inr (.inr ⟨rfl, rfl⟩)

theorem Exclusive.move (exclusive : m.Exclusive) (move : Move m i event p q m')
    (at_p : m.threads[i]? = some p) : m'.Exclusive := by
  have before : m.Holds i ↔ p.holdsLock = true := Holds.iff_of_phase at_p
  have after : m'.Holds i ↔ q.holdsLock = true := Holds.iff_of_phase (move.own at_p)
  have others : ∀ j, j ≠ i → (m'.Holds j ↔ m.Holds j) := fun j ne => move.holds_iff ne
  rcases move.locked with ⟨out, free, inside, taken⟩ | ⟨inside, out, free⟩ | ⟨same, lock⟩
  -- nobody held the lock, and now this thread does
  · have only : ∀ j, m'.Holds j → j = i := by
      intro j holds
      by_cases ne : j = i
      · exact ne
      · cases free.symm.trans (exclusive.taken j ((others j ne).1 holds))
    exact ⟨fun _ _ => taken, fun _ => ⟨i, after.2 inside⟩,
      fun j k hj hk => (only j hj).trans (only k hk).symm⟩
  -- this thread held the lock, and now nobody does
  · have nobody : ∀ j, ¬m'.Holds j := by
      intro j holds
      by_cases ne : j = i
      · subst ne
        cases out.symm.trans (after.1 holds)
      · exact ne (exclusive.alone j i ((others j ne).1 holds) (before.2 inside))
    exact ⟨fun j holds => (nobody j holds).elim, fun taken => (by cases free.symm.trans taken),
      fun j k hj _ => (nobody j hj).elim⟩
  -- the same threads hold the lock as before
  · have all : ∀ j, m'.Holds j ↔ m.Holds j := by
      intro j
      by_cases ne : j = i
      · rw [ne, before, after, same]
      · exact others j ne
    refine ⟨?_, ?_, ?_⟩
    · intro j holds
      rw [lock]
      exact exclusive.taken j ((all j).1 holds)
    · intro taken
      obtain ⟨j, holds⟩ := exclusive.held (lock.symm.trans taken)
      exact ⟨j, (all j).2 holds⟩
    · intro j k hj hk
      exact exclusive.alone j k ((all j).1 hj) ((all k).1 hk)

/-! ## What is known of a thread -/

/-- A thread is about to notify: it has changed the count and not yet let go of the lock, or it has
    set the flag and not yet taken the lock. -/
def Pending (m : Monitor) (j : Nat) : Prop :=
  m.threads[j]? = some .cancelling ∨ m.threads[j]? = some .notifying

/-- A thread that waits for this target need not wait any longer. -/
def Due (m : Monitor) (target : Nat) : Prop := target ≤ m.count ∨ m.cancelled = true

/-- What is known of a thread in a phase, if this was its last call. -/
def Knows (m : Monitor) (call : Option Request) : Phase → Prop
  | .entering target | .comparing target | .awake target => call = some (.waitFor target)
  | .looking target => call = some (.waitFor target) ∧ m.count < target
  -- the flag may have been set since it was looked at, but then its thread waits for the lock
  | .dozing target => call = some (.waitFor target) ∧ m.count < target ∧
      (m.cancelled = true → ∃ j : Nat, m.threads[j]? = some .cancelling)
  | .asleep target => call = some (.waitFor target) ∧ (m.Due target → ∃ j, m.Pending j)
  | .leaving true => ∃ target, call = some (.waitFor target) ∧ target ≤ m.count
  | .leaving false => ∃ target, call = some (.waitFor target) ∧ m.count < target ∧
      m.cancelled = true
  | .advancing count | .storing count => call = some (.advance count)
  | .recording failure => call = some (.fail failure)
  | .flagging => ∃ request, call = some request ∧ request.Stops
  | _ => True

theorem Move.count_eq (move : Move m i event p q m') :
    m'.count = m.count ∨ (∃ count, p = .storing count ∧ m'.count = count) ∧ q = .notifying := by
  cases move with
  | store => exact .inr ⟨⟨_, rfl, rfl⟩, rfl⟩
  | _ => exact .inl rfl

theorem Move.cancelled_eq (move : Move m i event p q m') :
    m'.cancelled = m.cancelled ∨ p = .flagging ∧ q = .cancelling ∧ m'.cancelled = true := by
  cases move with
  | flag => exact .inr ⟨rfl, rfl, rfl⟩
  | _ => exact .inl rfl

/-- A thread that has set the flag takes the lock and notifies then. -/
theorem Move.of_cancelling (move : Move m i event .cancelling q m') :
    m.locked = false ∧ q = .notifying := by
  cases move with
  | acquire acquires free =>
    cases acquires
    exact ⟨free, rfl⟩
  | release releases => cases releases

/-- A pending notification stays pending until it is given. -/
theorem Move.pending (move : Move m i event p q m') (at_p : m.threads[i]? = some p)
    (pending : m.Pending j) : m'.Pending j ∨ j = i ∧ p = .notifying := by
  by_cases same : j = i
  · subst same
    rcases pending with cancelling | notifying
    · cases at_p.symm.trans cancelling
      obtain ⟨-, rfl⟩ := move.of_cancelling
      exact .inl (.inr (move.own at_p))
    · cases at_p.symm.trans notifying
      exact .inr ⟨rfl, rfl⟩
  · exact .inl (pending.imp (move.stays same · rfl) (move.stays same · rfl))

/-- While a thread holds the lock, a thread that waits for it goes on waiting. -/
theorem Move.cancelling (move : Move m i event p q m') (at_p : m.threads[i]? = some p)
    (locked : m.locked = true) (waits : m.threads[j]? = some .cancelling) :
    m'.threads[j]? = some .cancelling := by
  by_cases same : j = i
  · subst same
    cases at_p.symm.trans waits
    cases locked.symm.trans move.of_cancelling.1
  · exact move.stays same waits rfl

/-- What is known of a thread is not lost by the move of another. -/
theorem knows_other {call : Option Request} (exclusive : m.Exclusive)
    (move : Move m i event p q m') (at_p : m.threads[i]? = some p) (ne : j ≠ i)
    (at_r : m.threads[j]? = some r) (known : m.Knows call r) :
    m'.Knows call (if p = .notifying then r.woken else r) := by
  -- while another thread holds the lock, the count stays as it is
  have kept : r.holdsLock = true → m'.count = m.count := by
    intro holds
    rcases move.count_eq with same | ⟨⟨count, rfl, -⟩, -⟩
    · exact same
    · exact absurd (exclusive.alone j i ⟨r, at_r, holds⟩ ⟨_, at_p, rfl⟩) ne
  cases r with
  | asleep target =>
    obtain ⟨call_eq, pending⟩ := known
    by_cases notifies : p = .notifying
    · rw [if_pos notifies]
      exact call_eq
    rw [if_neg notifies]
    refine ⟨call_eq, fun due => ?_⟩
    -- if it is only now that it should not sleep, then it is this move that notifies
    by_cases before : m.Due target
    · obtain ⟨k, pending⟩ := pending before
      exact ⟨k, (move.pending at_p pending).resolve_right fun given => notifies given.2⟩
    · rcases move.count_eq with count | ⟨-, rfl⟩
      · rcases move.cancelled_eq with cancelled | ⟨-, rfl, -⟩
        · rw [Due, count, cancelled] at due
          exact absurd due before
        · exact ⟨i, .inl (move.own at_p)⟩
      · exact ⟨i, .inr (move.own at_p)⟩
  | dozing target =>
    obtain ⟨call_eq, few, waits⟩ := known
    rw [show Phase.woken (.dozing target) = .dozing target from rfl, ite_self]
    refine ⟨call_eq, kept rfl ▸ few, fun cancelled => ?_⟩
    rcases move.cancelled_eq with same | ⟨-, rfl, -⟩
    · obtain ⟨k, waiting⟩ := waits (same ▸ cancelled)
      exact ⟨k, move.cancelling at_p (exclusive.taken j ⟨_, at_r, rfl⟩) waiting⟩
    · exact ⟨i, move.own at_p⟩
  | looking target =>
    rw [show Phase.woken (.looking target) = .looking target from rfl, ite_self]
    exact ⟨known.1, kept rfl ▸ known.2⟩
  | leaving result =>
    rw [show Phase.woken (.leaving result) = .leaving result from rfl, ite_self]
    cases result with
    | true =>
      obtain ⟨target, call_eq, enough⟩ := known
      exact ⟨target, call_eq, kept rfl ▸ enough⟩
    | false =>
      obtain ⟨target, call_eq, few, cancelled⟩ := known
      refine ⟨target, call_eq, kept rfl ▸ few, ?_⟩
      rcases move.cancelled_eq with same | ⟨-, -, set⟩
      · exact same.trans cancelled
      · exact set
  | _ =>
    -- in the other phases nothing is known but the call
    simp only [Phase.woken, ite_self]
    exact known

/-- What is known of a thread after its own move. -/
theorem Move.knows {call : Option Request} (move : Move m i event p q m')
    (at_p : m.threads[i]? = some p) (known : m.Knows call p)
    (calls : ∀ request, event = .begin i request → call = some request) : m'.Knows call q := by
  have pending : ∀ j, m.Pending j → m'.Pending j ∨ j = i ∧ p = .notifying :=
    fun j => move.pending at_p
  cases move with
  | acquire acquires =>
    cases acquires with
    | cancel => exact trivial
    | _ => exact known
  | reached enough => exact ⟨_, known, enough⟩
  | short few => exact ⟨known, few⟩
  | told cancelled => exact ⟨_, known.1, known.2, cancelled⟩
  | untold going => exact ⟨known.1, known.2, fun cancelled => by cases going.symm.trans cancelled⟩
  | release releases =>
    cases releases with
    | sleep target =>
      obtain ⟨call_eq, few, waits⟩ := known
      refine ⟨call_eq, fun due => ?_⟩
      rcases due with enough | cancelled
      · exact absurd enough (Nat.not_le.2 few)
      · obtain ⟨j, waiting⟩ := waits cancelled
        exact ⟨j, (pending j (.inl waiting)).resolve_right fun given => by cases given.2⟩
    | leave | done => exact trivial
  | record => exact ⟨_, known, trivial⟩
  | wake => exact known.1
  | @begin result request =>
    have call_eq := calls request rfl
    cases request with
    | waitFor | advance | fail => exact call_eq
    | cancel => exact ⟨_, call_eq, trivial⟩
  | store | flag | notify => exact trivial

/-! ## Whole histories -/

/-- Whoever has stored a count or set the flag was asked to. -/
structure Asked (history : List Event) (m : Monitor) : Prop where
  count : m.count = 0 ∨ ∃ j, .begin j (.advance m.count) ∈ history
  cancelled : m.cancelled = true → ∃ j request, .begin j request ∈ history ∧ request.Stops

theorem mem_of_lastCall {request : Request} (call : lastCall i history = some request) :
    .begin i request ∈ history := by
  induction history with
  | nil => cases call
  | cons event history ih =>
    cases event with
    | step | wake => exact List.mem_cons_of_mem _ (ih call)
    | begin j other =>
      rw [lastCall] at call
      split at call
      · next same =>
        cases call
        exact same ▸ List.mem_cons_self
      · exact List.mem_cons_of_mem _ (ih call)

theorem Asked.move (asked : Asked history m) (move : Move m i event p q m')
    (known : m.Knows (lastCall i history) p) : Asked (event :: history) m' where
  count := by
    rcases move.count_eq with same | ⟨⟨count, rfl, stored⟩, -⟩
    · rw [same]
      exact asked.count.imp_right fun ⟨j, member⟩ => ⟨j, List.mem_cons_of_mem _ member⟩
    · rw [stored]
      exact .inr ⟨i, List.mem_cons_of_mem _ (mem_of_lastCall known)⟩
  cancelled set := by
    rcases move.cancelled_eq with same | ⟨rfl, -, -⟩
    · obtain ⟨j, request, member, stops⟩ := asked.cancelled (same ▸ set)
      exact ⟨j, request, List.mem_cons_of_mem _ member, stops⟩
    · obtain ⟨request, call, stops⟩ := known
      exact ⟨i, request, List.mem_cons_of_mem _ (mem_of_lastCall call), stops⟩

/-- What holds after every history. -/
structure Sound (history : List Event) (m : Monitor) : Prop where
  exclusive : m.Exclusive
  knows : ∀ i p, m.threads[i]? = some p → m.Knows (lastCall i history) p
  asked : Asked history m

theorem sound_new (n : Nat) : Sound [] (new n) := by
  have idle : ∀ (i : Nat) p, (new n).threads[i]? = some p → p = .idle none := by
    intro i p at_p
    exact (List.mem_replicate.1 (List.mem_of_getElem? at_p)).2
  have nobody : ∀ i, ¬(new n).Holds i := by
    rintro i ⟨p, at_p, holds⟩
    rw [idle i p at_p] at holds
    cases holds
  refine ⟨⟨?_, ?_, ?_⟩, ?_, ⟨.inl rfl, ?_⟩⟩
  · exact fun i holds => (nobody i holds).elim
  · exact fun taken => by cases taken
  · exact fun i _ holds => (nobody i holds).elim
  · intro i p at_p
    rw [idle i p at_p]
    exact trivial
  · exact fun set => by cases set

/-- An event changes the last call of a thread only if the thread begins one. -/
theorem lastCall_cons (history : List Event) (event : Event) (i : Nat) :
    lastCall i (event :: history) = lastCall i history ∨
      ∃ request, event = .begin i request ∧ lastCall i (event :: history) = some request := by
  cases event with
  | step | wake => exact .inl rfl
  | begin j request =>
    by_cases same : j = i
    · exact .inr ⟨request, same ▸ rfl, if_pos same⟩
    · exact .inl (if_neg same)

/-- What is known of a thread without a call is true whatever it calls. -/
theorem Move.knows_begin {call call' : Option Request} {request : Request}
    (move : Move m i (.begin i request) p q m') (known : m.Knows call p) : m.Knows call' p := by
  cases move with
  | begin => exact known

theorem Sound.next (sound : Sound history m) (next : m.next? event = some m') :
    Sound (event :: history) m' := by
  obtain ⟨p, q, at_p, move⟩ := move_of_next? next
  generalize named : event.thread = i at at_p move
  have known := sound.knows i p at_p
  refine ⟨sound.exclusive.move move at_p, fun j r at_r => ?_, sound.asked.move move known⟩
  by_cases same : j = i
  · subst same
    cases (move.own at_p).symm.trans at_r
    rcases lastCall_cons history event j with kept | ⟨request, rfl, call⟩
    · rw [kept]
      refine move.knows at_p known fun request begun => ?_
      subst begun
      rw [← kept, lastCall, if_pos rfl]
    · refine move.knows at_p (move.knows_begin known) fun other begun => ?_
      cases begun
      exact call
  · have kept : lastCall j (event :: history) = lastCall j history := by
      refine (lastCall_cons history event j).resolve_right ?_
      rintro ⟨request, rfl, -⟩
      exact same named
    rw [kept]
    rw [move.others same] at at_r
    by_cases notifies : p = .notifying
    · rw [if_pos notifies, Option.map_eq_some_iff] at at_r
      obtain ⟨before, at_before, rfl⟩ := at_r
      have after :=
        knows_other sound.exclusive move at_p same at_before (sound.knows j before at_before)
      rwa [if_pos notifies] at after
    · rw [if_neg notifies] at at_r
      have after := knows_other sound.exclusive move at_p same at_r (sound.knows j r at_r)
      rwa [if_neg notifies] at after

theorem Run.sound {n : Nat} (run : Run (new n) history m) : Sound history m := by
  induction run with
  | nil => exact sound_new n
  | cons _ next ih => exact ih.next next

/-! ## A pending notification wakes the sleepers -/

/-- A sleeper sleeps on, and the notification stays pending, until the sleeper is awake. -/
theorem Move.asleep {target : Nat} (move : Move m i event p q m') (at_p : m.threads[i]? = some p)
    (sleeps : m.threads[j]? = some (.asleep target)) {k : Nat} (pending : m.Pending k) :
    m'.threads[j]? = some (.awake target) ∨
      m'.threads[j]? = some (.asleep target) ∧ m'.Pending k := by
  by_cases same : j = i
  · subst same
    cases at_p.symm.trans sleeps
    have awake : q = .awake target := by
      cases move with
      | acquire acquires => cases acquires
      | release releases => cases releases
      | wake => rfl
    exact .inl (awake ▸ move.own at_p)
  · rw [move.others same, sleeps]
    by_cases notifies : p = .notifying
    · exact .inl (if_pos notifies)
    · exact .inr ⟨if_neg notifies,
        (move.pending at_p pending).resolve_right fun given => notifies given.2⟩

theorem Run.after {events : List Event} {m'' : Monitor} (first : m.next? event = some m')
    (rest : Run m' events m'') : Run m (events ++ [event]) m'' := by
  induction rest with
  | nil => exact .cons .nil first
  | cons _ next ih => exact .cons ih next

/-- Steps of two threads that lead from a monitor to one where the sleeper is awake. -/
def Wakes (m : Monitor) (i target holder notifier : Nat) : Prop :=
  ∃ steps m', Run m steps m' ∧ m'.threads[i]? = some (.awake target) ∧
    ∀ event ∈ steps, event = .step holder ∨ event = .step notifier

theorem Wakes.after {target holder notifier : Nat} (step : m.step? j = some m')
    (party : j = holder ∨ j = notifier) (wakes : m'.Wakes i target holder notifier) :
    m.Wakes i target holder notifier := by
  obtain ⟨steps, m'', run, awake, parties⟩ := wakes
  refine ⟨steps ++ [.step j], m'', .after (show m.next? (.step j) = some m' from step) run, awake,
    fun event member => ?_⟩
  rcases List.mem_append.1 member with before | last
  · exact parties event before
  · cases List.mem_singleton.1 last
    exact party.imp (congrArg Event.step) (congrArg Event.step)

/-- How many steps a thread that holds the lock takes at most until it lets go of it. -/
def stepsLeft : Phase → Nat
  | .comparing _ | .storing _ => 3
  | .looking _ | .notifying => 2
  | _ => 1

/-- A thread that holds the lock can take a step, and comes nearer to letting go of it. -/
theorem step_holder (at_p : m.threads[i]? = some p) (holds : p.holdsLock = true) :
    ∃ q m', m.step? i = some m' ∧ Move m i (.step i) p q m' ∧
      (m'.locked = false ∨ q.holdsLock = true ∧ stepsLeft q < stepsLeft p) := by
  have step : ∃ m', m.step? i = some m' := by
    unfold step?
    rw [at_p]
    cases p <;> first | exact ⟨_, rfl⟩ | cases holds
  obtain ⟨m', step⟩ := step
  obtain ⟨p', q, at_p', move⟩ := move_of_step? step
  cases at_p.symm.trans at_p'
  refine ⟨q, m', step, move, ?_⟩
  cases move with
  | acquire acquires => cases acquires <;> cases holds
  | release => exact .inl rfl
  | record | flag => cases holds
  | reached | short | told | untold | store | notify => exact .inr ⟨rfl, by simp [stepsLeft]⟩

/-- A thread that notifies wakes a sleeper with its next step. -/
theorem wakes_of_notifying {target : Nat} (sleeps : m.threads[i]? = some (.asleep target))
    (notifies : m.threads[j]? = some .notifying) (holder : Nat) :
    m.Wakes i target holder j := by
  obtain ⟨q, m', step, move, -⟩ := step_holder notifies rfl
  have ne : i ≠ j := by
    rintro rfl
    cases sleeps.symm.trans notifies
  refine .after step (.inr rfl) ⟨[], m', .nil, ?_, fun _ member => by cases member⟩
  rw [move.others ne, sleeps]
  rfl

/-- If nobody holds the lock, a pending notification is at most two steps away. -/
theorem wakes_of_free {target : Nat} (sleeps : m.threads[i]? = some (.asleep target))
    (pending : m.Pending j) (free : m.locked = false) (holder : Nat) :
    m.Wakes i target holder j := by
  rcases pending with cancelling | notifying
  · have step : m.step? j = some { m.goOn j .notifying with locked := true } := by
      simp [step?, cancelling, acquire?, free]
    obtain ⟨p, q, at_p, move⟩ := move_of_step? step
    cases cancelling.symm.trans at_p
    obtain ⟨-, rfl⟩ := move.of_cancelling
    refine .after step (.inr rfl) ?_
    rcases move.asleep cancelling sleeps (.inl cancelling) with awake | ⟨sleeps', -⟩
    · exact ⟨[], _, .nil, awake, fun _ member => by cases member⟩
    · exact wakes_of_notifying sleeps' (move.own cancelling) holder
  · exact wakes_of_notifying sleeps notifying holder

/-- The holder of the lock lets go of it by itself, and then the notification is given. -/
theorem wakes_of_holder {target holder : Nat} {p : Phase}
    (sleeps : m.threads[i]? = some (.asleep target)) (pending : m.Pending j)
    (at_p : m.threads[holder]? = some p) (holds : p.holdsLock = true) :
    m.Wakes i target holder j := by
  induction bound : stepsLeft p using Nat.strongRecOn generalizing m p with
  | ind n ih =>
    obtain ⟨q, m', step, move, further⟩ := step_holder at_p holds
    refine .after step (.inl rfl) ?_
    rcases move.asleep at_p sleeps pending with awake | ⟨sleeps', pending'⟩
    · exact ⟨[], m', .nil, awake, fun _ member => by cases member⟩
    rcases further with free | ⟨holds', less⟩
    · exact wakes_of_free sleeps' pending' free holder
    · exact ih (stepsLeft q) (bound ▸ less) sleeps' pending' (move.own at_p) holds' rfl

theorem Exclusive.wakes {target : Nat} (exclusive : m.Exclusive)
    (sleeps : m.threads[i]? = some (.asleep target)) (pending : m.Pending j) :
    ∃ holder, m.Wakes i target holder j := by
  by_cases locked : m.locked = true
  · obtain ⟨holder, p, at_p, holds⟩ := exclusive.held locked
    exact ⟨holder, wakes_of_holder sleeps pending at_p holds⟩
  · exact ⟨j, wakes_of_free sleeps pending (Bool.eq_false_iff.2 locked) j⟩

/-! ## The waits -/

/-- A wait that returns has found the count or the flag as its result tells. -/
theorem leaving_of_step? {result : Bool} (step : m.step? i = some m')
    (returned : m'.threads[i]? = some (.idle (some result))) :
    m.threads[i]? = some (.leaving result) := by
  obtain ⟨p, q, at_p, move⟩ := move_of_step? step
  cases (move.own at_p).symm.trans returned
  cases move with
  | acquire acquires => cases acquires
  | release releases =>
    cases releases
    exact at_p

/-- Whatever threads call and in whatever order they take their steps: a thread sleeps although its
    target is reached, or although everybody has been told to stop, only while another is about to
    notify. That notification stays pending until the sleeper is awake, and it comes without help
    of others: whoever holds the lock lets go of it by its own steps, and then it is given. A wait
    returns `true` only if so many entries are done as somebody told, and `false` only if they are
    not and somebody has told everybody to stop. -/
theorem no_lost_wakeup {n : Nat} (run : Run (new n) history m) :
    (∀ i target, m.threads[i]? = some (.asleep target) → m.Due target →
      ∃ j, j ≠ i ∧ m.Pending j ∧
        (∀ event m', m.next? event = some m' →
          m'.threads[i]? = some (.awake target) ∨
            m'.threads[i]? = some (.asleep target) ∧ m'.Pending j) ∧
        ∃ holder, m.Wakes i target holder j) ∧
      ∀ i m' result, m.step? i = some m' → m'.threads[i]? = some (.idle (some result)) →
        ∃ target, lastCall i history = some (.waitFor target) ∧
          if result then
            target ≤ m.count ∧
              (m.count = 0 ∨ ∃ j, .begin j (.advance m.count) ∈ history)
          else
            m.count < target ∧ m.cancelled = true ∧
              ∃ j request, .begin j request ∈ history ∧ request.Stops := by
  have sound := run.sound
  constructor
  · intro i target sleeps due
    obtain ⟨j, pending⟩ := (sound.knows i _ sleeps).2 due
    refine ⟨j, ?_, pending, ?_, sound.exclusive.wakes sleeps pending⟩
    · rintro rfl
      rcases pending with phase | phase <;> cases sleeps.symm.trans phase
    · intro event m' next
      obtain ⟨p, q, at_p, move⟩ := move_of_next? next
      exact move.asleep at_p sleeps pending
  · intro i m' result step returned
    have known := sound.knows i _ (leaving_of_step? step returned)
    cases result with
    | true =>
      obtain ⟨target, call, enough⟩ := known
      exact ⟨target, call, enough, sound.asked.count⟩
    | false =>
      obtain ⟨target, call, few, cancelled⟩ := known
      exact ⟨target, call, few, cancelled, sound.asked.cancelled cancelled⟩

/-- A thread waits for an entry and sleeps, and another has set the flag and not yet taken the
    lock. -/
theorem no_lost_wakeup_of_cancel :
    ∃ history m, Run (new 2) history m ∧ m.threads[0]? = some (.asleep 1) ∧ m.Due 1 ∧
      ∃ j, j ≠ 0 ∧ m.Pending j ∧ ∃ holder, m.Wakes 0 1 holder j := by
  have waits : Run (new 2) [.step 0, .step 0, .step 0, .step 0, .begin 0 (.waitFor 1)]
      ⟨0, false, none, false, [.asleep 1, .idle none]⟩ :=
    .cons (.cons (.cons (.cons (.cons .nil rfl) rfl) rfl) rfl) rfl
  have run : Run (new 2) (.step 1 :: .begin 1 .cancel ::
      [.step 0, .step 0, .step 0, .step 0, .begin 0 (.waitFor 1)])
      ⟨0, true, none, false, [.asleep 1, .cancelling]⟩ := .cons (.cons waits rfl) rfl
  obtain ⟨j, ne, pending, -, wakes⟩ := (no_lost_wakeup run).1 0 1 rfl (.inr rfl)
  exact ⟨_, _, run, rfl, .inr rfl, j, ne, pending, wakes⟩

end Monitor

end Progress

end ParallelGzip
