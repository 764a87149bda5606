import ParallelGzip.Error

set_option autoImplicit false

/-! # Progress: how a party waits for the sequencer

In a pipeline the owner's wait is a single step that can be taken once enough entries are done or
everybody has been told to stop. This module shows the wait from nearby: the count of finished
entries is guarded by a lock, a thread that has to wait lets go of the lock and falls asleep in
one step, and whoever changes the count or the flag wakes all sleepers while holding the lock. The
flag is set without the lock, so a sleeper may have looked at it just before.

A thread takes one step at a time: it takes the lock, looks at something, stores something, wakes
the sleepers, falls asleep, or lets go of the lock. A sleeper may also wake for no reason. -/

namespace ParallelGzip

namespace Progress

/-- A call of a thread. -/
inductive Request
  /-- Wait until so many entries are done. -/
  | waitFor (target : Nat)
  /-- Tell that so many entries are done. -/
  | advance (count : Nat)
  /-- Leave a failure and tell everybody to stop. -/
  | fail (failure : Error)
  /-- Tell everybody to stop. -/
  | cancel

/-- What a thread is about to do. -/
inductive Phase
  /-- No call is running; the last wait came to this. -/
  | idle (result : Option Bool)
  /-- Take the lock in order to wait. -/
  | entering (target : Nat)
  /-- Compare the count with the target. -/
  | comparing (target : Nat)
  /-- Look whether to stop. -/
  | looking (target : Nat)
  /-- Let go of the lock and fall asleep. -/
  | dozing (target : Nat)
  /-- Sleep until woken. -/
  | asleep (target : Nat)
  /-- Take the lock again after sleeping. -/
  | awake (target : Nat)
  /-- Let go of the lock with the result of the wait. -/
  | leaving (result : Bool)
  /-- Take the lock in order to store the count. -/
  | advancing (count : Nat)
  | storing (count : Nat)
  /-- Leave a failure in the slot. -/
  | recording (failure : Error)
  /-- Set the flag. -/
  | flagging
  /-- Take the lock after setting the flag. -/
  | cancelling
  /-- Wake all sleepers. -/
  | notifying
  /-- Let go of the lock. -/
  | releasing
  deriving DecidableEq

/-- Whether a thread holds the lock. -/
def Phase.holdsLock : Phase → Bool
  | comparing _ | looking _ | dozing _ | leaving _ | storing _ | notifying | releasing => true
  | _ => false

/-- What waking does to a thread. -/
def Phase.woken : Phase → Phase
  | asleep target => awake target
  | phase => phase

/-- The first step of a call. -/
def Request.first : Request → Phase
  | waitFor target => .entering target
  | advance count => .advancing count
  | fail failure => .recording failure
  | cancel => .flagging

/-- The count, the flag, the slot and the threads that share them. -/
structure Monitor where
  /-- Entries that are done. -/
  count : Nat
  /-- Whether everybody has been told to stop. -/
  cancelled : Bool
  /-- The slot for the first failure. -/
  failure : Option Error
  /-- Whether a thread holds the lock. -/
  locked : Bool
  threads : List Phase

/-- A monitor shared by `n` threads without a call. -/
def Monitor.new (n : Nat) : Monitor := ⟨0, false, none, false, List.replicate n (.idle none)⟩

namespace Monitor

/-- Let a thread go on with another phase. -/
def goOn (m : Monitor) (i : Nat) (phase : Phase) : Monitor :=
  { m with threads := m.threads.set i phase }

/-- Let a thread take the lock, unless it is taken. -/
def acquire? (m : Monitor) (i : Nat) (phase : Phase) : Option Monitor :=
  if m.locked then none else some { m.goOn i phase with locked := true }

/-- Let a thread give the lock back. -/
def release (m : Monitor) (i : Nat) (phase : Phase) : Monitor :=
  { m.goOn i phase with locked := false }

/-- The next step of a thread, unless it sleeps, waits for the lock, or has no call to run. -/
def step? (m : Monitor) (i : Nat) : Option Monitor :=
  match m.threads[i]? with
  | none => none
  | some phase =>
    match phase with
    | .idle _ => none
    | .entering target => m.acquire? i (.comparing target)
    | .comparing target =>
      some (m.goOn i (if target ≤ m.count then .leaving true else .looking target))
    | .looking target => some (m.goOn i (if m.cancelled then .leaving false else .dozing target))
    | .dozing target => some (m.release i (.asleep target))
    | .asleep _ => none
    | .awake target => m.acquire? i (.comparing target)
    | .leaving result => some (m.release i (.idle (some result)))
    | .advancing count => m.acquire? i (.storing count)
    | .storing count => some { m.goOn i .notifying with count := count }
    | .recording failure =>
      some { m.goOn i .flagging with failure := m.failure.or (some failure) }
    | .flagging => some { m.goOn i .cancelling with cancelled := true }
    | .cancelling => m.acquire? i .notifying
    | .notifying => some { m with threads := (m.threads.map Phase.woken).set i .releasing }
    | .releasing => some (m.release i (.idle none))

/-- Let a sleeper wake for no reason. -/
def wake? (m : Monitor) (i : Nat) : Option Monitor :=
  match m.threads[i]? with
  | some (.asleep target) => some (m.goOn i (.awake target))
  | _ => none

/-- Let a thread without a call begin one. -/
def begin? (m : Monitor) (i : Nat) (request : Request) : Option Monitor :=
  match m.threads[i]? with
  | some (.idle _) => some (m.goOn i request.first)
  | _ => none

end Monitor

end Progress

end ParallelGzip
