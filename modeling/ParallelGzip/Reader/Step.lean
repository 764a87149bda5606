import ParallelGzip.Reader.Basic

set_option autoImplicit false

/-! # Reader steps: what caller and worker may do next

A step touches what the two share at most once; decoding a chunk touches nothing shared. Every
step decreases the measure, so every call ends, whatever the order of the steps, and no step
creates bytes. -/

namespace ParallelGzip

namespace Reader

variable {σ : Type} [Source σ]

/-! ## Steps -/

/-- What the worker does with a decoded chunk. What was decoded before a failure is sent before the
    failure is reported; a panic takes the chunk with it. -/
def afterDecoding (chunk : Array UInt8) : Ending → DecoderPhase
  | .ended => if chunk.size = 0 then .closing else .sending chunk.toList none
  | .failed cause =>
    if chunk.size = 0 then .recording (.ofDecoder cause)
    else .sending chunk.toList (some (.ofDecoder cause))
  | .panicked => .recording (.thread "decompress worker panicked")

/-- Decode the next chunk. -/
def decode (r : Reader σ) : Reader σ :=
  match r with
  | ⟨chunkSize, queueSize, decoder, _, queue, stop, failure, attached, caller, rest, position,
      closed⟩ =>
    match Source.readChunk decoder chunkSize #[] with
    | (chunk, result, decoder) =>
      ⟨chunkSize, queueSize, decoder, afterDecoding chunk result, queue, stop, failure, attached,
        caller, rest, position, closed⟩

/-- The next step of the worker, which waits while the queue is full. -/
def workerStep? (r : Reader σ) : Option (Reader σ) :=
  match r.worker with
  | .checking => some { r with worker := if r.stop then .closing else .decoding }
  | .decoding => some r.decode
  | .sending chunk failure =>
    if !r.attached then some { r with worker := .closing }
    else if r.queue.length < r.queueSize then
      some { r with
        queue := r.queue ++ [chunk]
        worker := match failure with
          | none => .checking
          | some failure => .recording failure }
    else none
  | .recording failure => some { r with failure := r.failure.or (some failure), worker := .closing }
  | .closing => some { r with worker := .exited }
  | .exited => none

/-- What a caller learns from a queue that is empty and let go of. -/
def endResult (r : Reader σ) : Except Error Unit :=
  match r.failure with
  | some failure => .error failure
  | none => .ok ()

/-- The next step of the caller, which waits while the queue is empty, and for the worker to
    exit. -/
def callerStep? (r : Reader σ) : Option (Reader σ) :=
  match r.caller with
  | .ready _ => none
  | .filling =>
    match r.queue with
    | chunk :: queue =>
      some { r with
        queue := queue
        rest := chunk
        caller := if chunk = [] then .filling else .ready (.ok ()) }
    | [] =>
      match r.worker with
      | .exited => some { r with caller := .ready r.endResult }
      | _ => none
  | .stopping => some { r with stop := true, caller := .detaching }
  | .detaching => some { r with queue := [], attached := false, caller := .joining }
  | .joining =>
    match r.worker with
    | .exited => some { r with rest := [], caller := .ready (.ok ()) }
    | _ => none

/-- The parties of a reader. -/
inductive Party
  | caller
  | worker
  deriving DecidableEq, Repr

/-- The next step of a party, unless it has to wait or is gone. -/
def step? (r : Reader σ) : Party → Option (Reader σ)
  | .caller => r.callerStep?
  | .worker => r.workerStep?

/-! ## The measure -/

/-- The weight of what the worker is about to do. -/
def workerWeight : DecoderPhase → Nat
  | .checking => 6
  | .decoding => 5
  | .sending _ _ => 12
  | .recording _ => 4
  | .closing => 2
  | .exited => 0

/-- The weight of what the caller is about to do. -/
def callerWeight : CallerPhase → Nat
  | .ready _ => 0
  | .filling => 1
  | .stopping => 4
  | .detaching => 3
  | .joining => 2

/-- The weight of everything that may still happen: each byte still to be decoded may be a chunk. -/
def weight (r : Reader σ) : Nat :=
  10 * Source.supply r.decoder + workerWeight r.worker + 2 * r.queue.length + callerWeight r.caller

theorem weight_decode_lt {r : Reader σ} (h : r.worker = .decoding) :
    r.decode.weight < r.weight := by
  have hs := Source.supply_readChunk r.decoder r.chunkSize #[]
  rcases hr : Source.readChunk r.decoder r.chunkSize #[] with ⟨chunk, result, decoder⟩
  rw [hr] at hs
  simp only [List.size_toArray, List.length_nil] at hs
  simp only [weight, decode, hr, h]
  cases result <;> simp only [afterDecoding] <;> (try split) <;> simp only [workerWeight] <;>
    omega

theorem weight_step?_lt {r r' : Reader σ} {party : Party} (h : r.step? party = some r') :
    r'.weight < r.weight := by
  cases party with
  | caller =>
    change r.callerStep? = some r' at h
    unfold callerStep? at h
    split at h
    · cases h
    · next hc =>
      split at h
      · next hq =>
        cases h
        simp only [weight, hc, hq, List.length_cons]
        split <;> simp only [callerWeight] <;> omega
      · split at h
        · cases h
          simp only [weight, hc, callerWeight]
          omega
        · cases h
    · next hc =>
      cases h
      simp only [weight, hc, callerWeight]
      omega
    · next hc =>
      cases h
      simp only [weight, hc, callerWeight, List.length_nil]
      omega
    · next hc =>
      split at h
      · cases h
        simp only [weight, hc, callerWeight]
        omega
      · cases h
  | worker =>
    change r.workerStep? = some r' at h
    unfold workerStep? at h
    split at h
    · next hw =>
      cases h
      simp only [weight, hw]
      split <;> simp only [workerWeight] <;> omega
    · next hw =>
      cases h
      exact weight_decode_lt hw
    · next hw =>
      split at h
      · cases h
        simp only [weight, hw, workerWeight]
        omega
      · split at h
        · cases h
          simp only [weight, hw, List.length_append, List.length_cons, List.length_nil]
          split <;> simp only [workerWeight] <;> omega
        · cases h
    · next hw =>
      cases h
      simp only [weight, hw, workerWeight]
      omega
    · next hw =>
      cases h
      simp only [weight, hw, workerWeight]
      omega
    · cases h

/-! ## The supply -/

/-- Bytes in the hands of the worker. -/
def inHand : DecoderPhase → Nat
  | .sending chunk _ => chunk.length
  | _ => 0

/-- Bytes in a queue. -/
def queued (queue : List Bytes) : Nat := queue.flatten.length

/-- At most so many bytes are still to come out of a reader. -/
def supply (r : Reader σ) : Nat :=
  Source.supply r.decoder + inHand r.worker + queued r.queue + r.rest.length

theorem supply_decode_le {r : Reader σ} (h : r.worker = .decoding) :
    r.decode.supply ≤ r.supply := by
  have hs := Source.supply_readChunk r.decoder r.chunkSize #[]
  rcases hr : Source.readChunk r.decoder r.chunkSize #[] with ⟨chunk, result, decoder⟩
  rw [hr] at hs
  simp only [List.size_toArray, List.length_nil] at hs
  simp only [supply, decode, hr, h]
  cases result <;> simp only [afterDecoding] <;> (try split) <;>
    simp only [inHand, Array.length_toList] <;> omega

/-- No step creates bytes; the caller takes another chunk only when nothing is left of the last. -/
theorem supply_step?_le {r r' : Reader σ} {party : Party} (h : r.step? party = some r')
    (hrest : r.caller = .filling → r.rest = []) :
    r'.supply ≤ r.supply ∧ (r'.caller = .filling → r'.rest = []) := by
  cases party with
  | caller =>
    change r.callerStep? = some r' at h
    unfold callerStep? at h
    split at h
    · cases h
    · next hc =>
      have hr := hrest hc
      split at h
      · next chunk queue hq =>
        cases h
        refine ⟨?_, ?_⟩
        · simp only [supply, hq, hr, queued, List.flatten_cons, List.length_append,
            List.length_nil]
          omega
        · simp only
          split
          · intro _
            assumption
          · simp
      · split at h
        · cases h
          exact ⟨Nat.le_refl _, by simp⟩
        · cases h
    · cases h
      exact ⟨Nat.le_refl _, by simp⟩
    · cases h
      refine ⟨?_, by simp⟩
      simp only [supply, queued, List.flatten_nil, List.length_nil]
      omega
    · split at h
      · cases h
        refine ⟨?_, by simp⟩
        simp only [supply, List.length_nil]
        omega
      · cases h
  | worker =>
    change r.workerStep? = some r' at h
    unfold workerStep? at h
    split at h
    · next hw =>
      cases h
      refine ⟨?_, hrest⟩
      simp only [supply, hw]
      split <;> simp [inHand]
    · next hw =>
      cases h
      exact ⟨supply_decode_le hw, hrest⟩
    · next hw =>
      split at h
      · cases h
        refine ⟨?_, hrest⟩
        simp only [supply, hw, inHand]
        omega
      · split at h
        · cases h
          refine ⟨?_, hrest⟩
          simp only [supply, hw, queued, List.flatten_append, List.flatten_cons, List.flatten_nil,
            List.length_append, List.length_nil]
          split <;> simp only [inHand] <;> omega
        · cases h
    · next hw =>
      cases h
      refine ⟨?_, hrest⟩
      simp only [supply, hw, inHand]
      omega
    · next hw =>
      cases h
      refine ⟨?_, hrest⟩
      simp only [supply, hw, inHand]
      omega
    · cases h

end Reader

end ParallelGzip
