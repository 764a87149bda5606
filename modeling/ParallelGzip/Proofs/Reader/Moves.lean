import ParallelGzip.Reader.Run

set_option autoImplicit false

/-! # Moves of a reader: everything caller and worker can do in one step

As for the parties of a writer there is a relation for each of the two, with one constructor for
each thing that a step can do, guards included. -/

namespace ParallelGzip

namespace Reader

variable {σ : Type} {r r' : Reader σ}

/-- What the worker does when it has put a chunk into the queue. -/
def afterSending : Option Error → DecoderPhase
  | none => .checking
  | some failure => .recording failure

/-- What the worker can do in one step. -/
inductive WorkerMove [Source σ] (r : Reader σ) : Reader σ → Prop
  | check (phase : r.worker = .checking) :
      WorkerMove r { r with worker := if r.stop then .closing else .decoding }
  | decode {chunk : Array UInt8} {ending : Ending} {decoder : Members σ}
      (phase : r.worker = .decoding)
      (result : Source.readChunk r.decoder r.chunkSize #[] = (chunk, ending, decoder)) :
      WorkerMove r { r with decoder := decoder, worker := afterDecoding chunk ending }
  | abandon {chunk : Bytes} {failure : Option Error} (phase : r.worker = .sending chunk failure)
      (detached : r.attached = false) : WorkerMove r { r with worker := .closing }
  | send {chunk : Bytes} {failure : Option Error} (phase : r.worker = .sending chunk failure)
      (attached : r.attached = true) (room : r.queue.length < r.queueSize) :
      WorkerMove r { r with
        queue := r.queue ++ [chunk]
        worker := afterSending failure }
  | record {failure : Error} (phase : r.worker = .recording failure) :
      WorkerMove r { r with failure := r.failure.or (some failure), worker := .closing }
  | exit (phase : r.worker = .closing) : WorkerMove r { r with worker := .exited }

/-- What the caller can do in one step. -/
inductive CallerMove (r : Reader σ) : Reader σ → Prop
  | take {chunk : Bytes} {queue : List Bytes} (phase : r.caller = .filling)
      (queue? : r.queue = chunk :: queue) :
      CallerMove r { r with
        queue := queue
        rest := chunk
        caller := if chunk = [] then .filling else .ready (.ok ()) }
  | finish (phase : r.caller = .filling) (empty : r.queue = []) (exited : r.worker = .exited) :
      CallerMove r { r with caller := .ready r.endResult }
  | stop (phase : r.caller = .stopping) :
      CallerMove r { r with stop := true, caller := .detaching }
  | detach (phase : r.caller = .detaching) :
      CallerMove r { r with queue := [], attached := false, caller := .joining }
  | join (phase : r.caller = .joining) (exited : r.worker = .exited) :
      CallerMove r { r with rest := [], caller := .ready (.ok ()) }

theorem move_of_workerStep? [Source σ] (h : r.workerStep? = some r') : r.WorkerMove r' := by
  unfold workerStep? at h
  split at h
  · next phase =>
    cases h
    exact .check phase
  · next phase =>
    cases h
    rcases result : Source.readChunk r.decoder r.chunkSize #[] with ⟨chunk, ending, decoder⟩
    have move := WorkerMove.decode phase result
    simp only [decode, result]
    exact move
  · next chunk failure phase =>
    split at h
    · next detached =>
      cases h
      exact .abandon phase (by simpa using detached)
    · next attached =>
      split at h
      · next room =>
        cases h
        exact .send phase (by simpa using attached) room
      · cases h
  · next phase =>
    cases h
    exact .record phase
  · next phase =>
    cases h
    exact .exit phase
  · cases h

theorem move_of_callerStep? (h : r.callerStep? = some r') : r.CallerMove r' := by
  unfold callerStep? at h
  split at h
  · cases h
  · next phase =>
    split at h
    · next queue? =>
      cases h
      exact .take phase queue?
    · next empty =>
      split at h
      · next exited =>
        cases h
        exact .finish phase empty exited
      · cases h
  · next phase =>
    cases h
    exact .stop phase
  · next phase =>
    cases h
    exact .detach phase
  · next phase =>
    split at h
    · next exited =>
      cases h
      exact .join phase exited
    · cases h

/-- A worker that cannot take a step waits for room in the queue, or is gone. -/
theorem waits_of_workerStep? [Source σ] (h : r.workerStep? = none) :
    (∃ chunk failure, r.worker = .sending chunk failure ∧ r.attached = true ∧
      r.queueSize ≤ r.queue.length) ∨ r.worker = .exited := by
  unfold workerStep? at h
  split at h
  · cases h
  · cases h
  · next chunk failure phase =>
    split at h
    · cases h
    · next attached =>
      split at h
      · cases h
      · next full => exact .inl ⟨chunk, failure, phase, by simpa using attached, by omega⟩
  · cases h
  · cases h
  · next phase => exact .inr phase

/-- A caller that has to wait for a chunk waits for a worker that is not gone. -/
theorem waits_of_callerStep? (h : r.callerStep? = none) (phase : r.caller = .filling) :
    r.queue = [] ∧ r.worker ≠ .exited := by
  simp only [callerStep?, phase] at h
  split at h
  · cases h
  · next empty =>
    refine ⟨empty, ?_⟩
    intro exited
    simp only [exited, reduceCtorEq] at h

/-- The caller touches neither the position nor the bound on the queue. -/
theorem CallerMove.frame (move : r.CallerMove r') :
    r'.position = r.position ∧ r'.queueSize = r.queueSize := by
  cases move <;> exact ⟨rfl, rfl⟩

/-- A call that is run keeps what every step keeps, and it returns if until then somebody can always
    take a step. -/
theorem keeps_run [Source σ] (keeps : Reader σ → Prop)
    (kept : ∀ {r r' : Reader σ} {party : Party}, keeps r → r.step? party = some r' → keeps r')
    (progress : ∀ {r : Reader σ}, keeps r →
      (∃ result, r.caller = .ready result) ∨ ∃ party r', r.step? party = some r')
    (holds : keeps r) : keeps r.run ∧ ∃ result, r.run.caller = .ready result := by
  fun_induction Reader.run r with
  | case1 r r' step ih => exact ih (kept holds step)
  | case2 r _ result ready => exact ⟨holds, result, ready⟩
  | case3 r _ decoding _ ih =>
    have step : r.step? .worker = some r.decode := by
      simp only [step?, workerStep?, decoding]
    exact ih (kept holds step)
  | case4 r _ r' step _ _ ih => exact ih (kept holds step)
  | case5 r waits workerWaits notReady =>
    rcases progress holds with ⟨result, ready⟩ | ⟨party, r', step⟩
    · exact absurd ready (notReady result)
    · -- the party that could still move is one of the two
      cases party with
      | caller => cases waits.symm.trans step
      | worker => cases workerWaits.symm.trans step

end Reader

end ParallelGzip
