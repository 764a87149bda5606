import ParallelGzip.Proofs.Reader.Moves

set_option autoImplicit false

/-! # Outlook: what is still to come out of a reader

Reading a source chunk by chunk, one chunk after the other, gives some bytes and the way the source
ends. The worker of a reader does the same ahead of the caller: at every moment what is left of the
chunk taken last, the queue, what the worker has in hand and what the source still has to give are
together what is still to come, and no move of worker or caller changes that. -/

namespace ParallelGzip

/-- The failure to be reported for the way a source has ended. -/
def Ending.failure? : Ending → Option Error
  | ended => none
  | failed cause => some (.ofDecoder cause)
  | panicked => some (.thread "decompress worker panicked")

variable {σ : Type}

/-! ## Chunk after chunk -/

/-- Chunks of at most `n` bytes, one after the other, until one is empty or the source fails. What
    came before a failure is a chunk, but a panic takes it along. -/
def Source.readChunks [Source σ] (s : σ) (n : Nat) : List Bytes × Ending :=
  match _h : Source.readChunk s n #[] with
  | (chunk, .ended, s') =>
    if chunk.size = 0 then ([], .ended)
    else
      let (chunks, ending) := Source.readChunks s' n
      (chunk.toList :: chunks, ending)
  | (chunk, .failed cause, _) =>
    (if chunk.size = 0 then [] else [chunk.toList], .failed cause)
  | (_, .panicked, _) => ([], .panicked)
termination_by Source.supply s
decreasing_by
  have hs := Source.supply_readChunk s n #[]
  rw [_h] at hs
  simp only [List.size_toArray, List.length_nil] at hs
  omega

theorem Source.readChunks_eq [Source σ] (s : σ) (n : Nat) :
    Source.readChunks s n =
      match Source.readChunk s n #[] with
      | (chunk, .ended, s') =>
        if chunk.size = 0 then ([], .ended)
        else (chunk.toList :: (Source.readChunks s' n).1, (Source.readChunks s' n).2)
      | (chunk, .failed cause, _) =>
        (if chunk.size = 0 then [] else [chunk.toList], .failed cause)
      | (_, .panicked, _) => ([], .panicked) := by
  rw [readChunks]
  split <;> next result => rw [result]

namespace Reader

variable {r r' : Reader σ}

/-! ## What is still to come -/

/-- What the source still has to give, and the failure behind it. -/
def undecoded [Source σ] (r : Reader σ) : Bytes × Option Error :=
  ((Source.readChunks r.decoder r.chunkSize).1.flatten,
    (Source.readChunks r.decoder r.chunkSize).2.failure?)

/-- What is still to come into the queue, and the failure behind it. -/
def unsent [Source σ] (r : Reader σ) : Bytes × Option Error :=
  match r.worker with
  | .checking | .decoding => r.undecoded
  | .sending chunk none => (chunk ++ r.undecoded.1, r.undecoded.2)
  | .sending chunk (some failure) => (chunk, some failure)
  | .recording failure => ([], some failure)
  | .closing | .exited => ([], r.failure)

/-- What is still to come to the caller, and the failure behind it. -/
def outlook [Source σ] (r : Reader σ) : Bytes × Option Error :=
  (r.rest ++ r.queue.flatten ++ r.unsent.1, r.unsent.2)

/-- A reader that nobody has asked to close: the worker has not been told to stop, and a failure is
    in the slot only when the worker is on its way out. -/
structure Open (r : Reader σ) : Prop where
  closed : r.closed = false
  stop : r.stop = false
  attached : r.attached = true
  slot : (r.worker = .closing ∨ r.worker = .exited) ∨ r.failure = none
  caller : (r.caller = .filling ∧ r.rest = []) ∨
    ∃ result, r.caller = .ready result ∧ (r.rest ≠ [] → result = .ok ())

namespace Open

theorem workerMove [Source σ] (isOpen : r.Open) (move : r.WorkerMove r') : r'.Open := by
  obtain ⟨closed, stop, attached, slot, caller⟩ := isOpen
  -- as long as the worker is not on its way out nothing is in the slot
  have empty : r.worker ≠ .closing → r.worker ≠ .exited → r.failure = none := by
    intro staying present
    exact slot.resolve_left (not_or.2 ⟨staying, present⟩)
  cases move with
  | check phase | decode phase =>
    exact ⟨closed, stop, attached, .inr (empty (by simp [phase]) (by simp [phase])), caller⟩
  | send phase =>
    exact ⟨closed, stop, attached, .inr (empty (by simp [phase]) (by simp [phase])), caller⟩
  | abandon | record => exact ⟨closed, stop, attached, .inl (.inl rfl), caller⟩
  | exit => exact ⟨closed, stop, attached, .inl (.inr rfl), caller⟩

theorem callerMove (isOpen : r.Open) (move : r.CallerMove r') : r'.Open := by
  obtain ⟨closed, stop, attached, slot, caller⟩ := isOpen
  cases move with
  | @take chunk queue phase queue? =>
    refine ⟨closed, stop, attached, slot, ?_⟩
    by_cases empty : chunk = []
    · exact .inl ⟨if_pos empty, empty⟩
    · exact .inr ⟨_, if_neg empty, fun _ => rfl⟩
  | finish phase =>
    simp only [phase, true_and, reduceCtorEq, false_and, exists_false, or_false] at caller
    exact ⟨closed, stop, attached, slot, .inr ⟨_, rfl, absurd caller⟩⟩
  | stop phase | detach phase | join phase =>
    rw [phase] at caller
    simp at caller

/-- Handing over some of what is left of a chunk. -/
theorem consume (isOpen : r.Open) {result : Except Error Unit} (ready : r.caller = .ready result)
    (n : Nat) : (r.consume n).Open := by
  have caller := isOpen.caller
  simp only [ready, reduceCtorEq, false_and, CallerPhase.ready.injEq, exists_eq_left',
    false_or] at caller
  refine ⟨isOpen.closed, isOpen.stop, isOpen.attached, isOpen.slot, .inr ⟨result, ready, ?_⟩⟩
  intro some
  refine caller ?_
  intro none
  exact some (by simp only [Reader.consume, none, List.drop_nil])

end Open

/-! ## How it changes -/

/-- What is left of the chunk is the beginning of what is still to come. -/
theorem rest_isPrefix_outlook [Source σ] (r : Reader σ) : r.rest <+: r.outlook.1 := by
  rw [outlook, List.append_assoc]
  exact List.prefix_append _ _

theorem outlook_ne_nil [Source σ] (some : r.rest ≠ []) : r.outlook.1 ≠ [] := by
  intro none
  have nothing := r.rest_isPrefix_outlook
  rw [none] at nothing
  exact some (List.prefix_nil.1 nothing)

/-- Bytes that are handed over are taken from what is still to come. -/
theorem outlook_consume [Source σ] (r : Reader σ) (n : Nat) :
    r.outlook.1 = r.rest.take n ++ (r.consume n).outlook.1 ∧
      (r.consume n).outlook.2 = r.outlook.2 := by
  refine ⟨?_, rfl⟩
  simp only [outlook, consume, ← List.append_assoc, List.take_append_drop]
  rfl

/-- Decoding the next chunk puts it into the worker's hands. -/
theorem unsent_of_decode [Source σ] {chunk : Array UInt8} {ending : Ending} {decoder : Members σ}
    (empty : r.failure = none)
    (result : Source.readChunk r.decoder r.chunkSize #[] = (chunk, ending, decoder)) :
    unsent { r with decoder := decoder, worker := afterDecoding chunk ending } = r.undecoded := by
  rw [undecoded, Source.readChunks_eq, result]
  cases ending with
  | ended =>
    dsimp only [afterDecoding]
    split
    · simp only [unsent, empty, List.flatten_nil, Ending.failure?]
    · simp only [unsent, undecoded, List.flatten_cons]
  | failed cause =>
    dsimp only [afterDecoding]
    split
    · simp only [unsent, List.flatten_nil, Ending.failure?]
    · simp only [unsent, List.flatten_cons, List.flatten_nil, List.append_nil, Ending.failure?]
  | panicked => simp only [afterDecoding, unsent, List.flatten_nil, Ending.failure?]

theorem outlook_of_workerMove [Source σ] (isOpen : r.Open) (move : r.WorkerMove r') :
    r'.outlook = r.outlook := by
  have empty := isOpen.slot
  cases move with
  | check phase =>
    simp only [outlook, unsent, phase, isOpen.stop, Bool.false_eq_true, if_false]
    rfl
  | decode phase result =>
    simp only [phase, reduceCtorEq, or_self, false_or] at empty
    have same := unsent_of_decode empty result
    rw [outlook, same]
    simp only [outlook, unsent, phase]
  | abandon phase detached =>
    rw [isOpen.attached] at detached
    cases detached
  | @send chunk failure phase attached room =>
    simp only [outlook, phase, unsent, List.flatten_append, List.flatten_cons, List.flatten_nil,
      List.append_nil]
    cases failure with
    | none => simp [afterSending, undecoded]
    | some failure => simp [afterSending]
  | record phase =>
    simp only [phase, reduceCtorEq, or_self, false_or] at empty
    simp only [outlook, unsent, phase, empty, Option.none_or]
  | exit phase => simp only [outlook, unsent, phase]

theorem outlook_of_callerMove [Source σ] (isOpen : r.Open) (move : r.CallerMove r') :
    r'.outlook = r.outlook := by
  have caller := isOpen.caller
  cases move with
  | take phase queue? =>
    simp only [phase, true_and, reduceCtorEq, false_and, exists_false, or_false] at caller
    simp only [outlook, caller, queue?, List.flatten_cons, List.nil_append]
    rfl
  | finish => rfl
  | stop phase | detach phase | join phase =>
    rw [phase] at caller
    simp at caller

end Reader

end ParallelGzip
