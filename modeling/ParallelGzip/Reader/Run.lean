import ParallelGzip.Reader.Step

set_option autoImplicit false

/-! # Running a reader: the calls

`run` is one run among the many that a reader allows: the worker takes a step only when the caller
has to wait for it. A reader is a buffered source; what its worker has left in the slot comes out
again with every call behind the last byte. -/

namespace ParallelGzip

namespace Reader

variable {σ : Type} [Source σ]

/-- Run until the call has returned. Decoding is a step of the worker like any other, but does not
    keep the reader as it was before. -/
def run (r : Reader σ) : Reader σ :=
  match _hc : r.step? .caller with
  | some r' => run r'
  | none =>
    match r.caller with
    | .ready _ => r
    | _ =>
      match _hd : r.worker with
      | .decoding => run r.decode
      | _ =>
        match _hw : r.step? .worker with
        | some r' => run r'
        | none => r
termination_by r.weight
decreasing_by
  · exact weight_step?_lt _hc
  · exact weight_decode_lt _hd
  · exact weight_step?_lt _hw

theorem supply_run_le (r : Reader σ) (hrest : r.caller = .filling → r.rest = []) :
    r.run.supply ≤ r.supply := by
  fun_induction run r with
  | case1 r r' h ih =>
    have := supply_step?_le h hrest
    exact Nat.le_trans (ih this.2) this.1
  | case2 => exact Nat.le_refl _
  | case3 r _ h _ ih =>
    have hs : r.step? .worker = some r.decode := by simp only [step?, workerStep?, h]
    have := supply_step?_le hs hrest
    exact Nat.le_trans (ih this.2) this.1
  | case4 r _ r' h _ _ ih =>
    have := supply_step?_le h hrest
    exact Nat.le_trans (ih this.2) this.1
  | case5 => exact Nat.le_refl _

/-! ## Calls -/

/-- The result of the last call. -/
def result (r : Reader σ) : Except Error Unit :=
  match r.caller with
  | .ready result => result
  | _ => .error (.internal "a call has not returned")

/-- What is left of the current chunk, or the next one; nothing at the end. -/
def fill (r : Reader σ) : Except Error Bytes × Reader σ :=
  if r.closed then (.error .closed, r)
  else if r.rest ≠ [] then (.ok r.rest, r)
  else
    let r := run { r with caller := .filling }
    match r.result with
    | .ok () => (.ok r.rest, r)
    | .error failure => (.error failure, r)

/-- Hand over some of what is left of the current chunk. -/
def consume (r : Reader σ) (n : Nat) : Reader σ :=
  { r with
    rest := r.rest.drop n
    position := r.position + (r.rest.take n).length }

/-- Hand over at most `n` bytes; none at the end. -/
def readInto (r : Reader σ) (n : Nat) : Except Error Bytes × Reader σ :=
  if n = 0 then (if r.closed then .error .closed else .ok [], r)
  else
    match r.fill with
    | (.ok available, r) => (.ok (available.take n), r.consume n)
    | (.error failure, r) => (.error failure, r)

/-- Stop the worker and let go of the source. A closed reader stays as it is. -/
def close (r : Reader σ) : Reader σ :=
  if r.closed then r else run { r with closed := true, caller := .stopping }

/-! ## A reader is a buffered source -/

/-- The result of a call through the interface of sources. The failure stays in the slot, which
    shares it. -/
def toReadResult : Except Error Bytes → ReadResult
  | .ok bytes => .delivered bytes
  | .error failure => .failed (failure.toIo true)

theorem supply_fill_le (r : Reader σ) : r.fill.2.supply ≤ r.supply := by
  unfold fill
  split
  · exact Nat.le_refl _
  · split
    · exact Nat.le_refl _
    · next hr =>
      have h := supply_run_le { r with caller := .filling } (fun _ => Decidable.not_not.1 hr)
      simp only
      split <;> exact h

theorem rest_of_fill {r r' : Reader σ} {bytes : Bytes} (h : r.fill = (.ok bytes, r')) :
    r'.rest = bytes := by
  unfold fill at h
  split at h
  · cases h
  · split at h
    · cases h
      rfl
    · simp only at h
      split at h
      · cases h
        rfl
      · cases h

theorem supply_consume (r : Reader σ) (n : Nat) :
    (r.consume n).supply + min n r.rest.length = r.supply := by
  simp only [supply, consume, List.length_drop]
  omega

theorem supply_readInto_le (r : Reader σ) (n : Nat) :
    (r.readInto n).2.supply + (toReadResult (r.readInto n).1).count ≤ r.supply := by
  unfold readInto
  split
  · simp only
    split <;> simp [toReadResult]
  · have hf := r.supply_fill_le
    split
    · next available r' h =>
      rw [h] at hf
      have hr := rest_of_fill h
      have hs := r'.supply_consume n
      simp only [toReadResult, ReadResult.count_delivered, List.length_take] at hf ⊢
      rw [hr] at hs
      omega
    · next failure r' h =>
      rw [h] at hf
      simpa [toReadResult] using hf

instance : BufferedSource (Reader σ) where
  read r n := (toReadResult (r.readInto n).1, (r.readInto n).2)
  supply := supply
  patience _ := 0
  supply_read := supply_readInto_le
  patience_read r n _ h := by
    simp only at h
    unfold toReadResult at h
    split at h <;> cases h
  fillBuffer r := (toReadResult r.fill.1, r.fill.2)
  consume := consume
  supply_fillBuffer := supply_fill_le
  patience_fillBuffer r _ h := by
    simp only at h
    unfold toReadResult at h
    split at h <;> cases h
  supply_consume r n h := by
    have hf := r.supply_fill_le
    rcases hr : r.fill with ⟨result, r'⟩
    rw [hr] at hf h
    cases result with
    | ok bytes =>
      have hs := r'.supply_consume n
      rw [rest_of_fill hr] at hs
      simp only [toReadResult, ReadResult.count_delivered] at h hf ⊢
      omega
    | error failure =>
      simp only [toReadResult, ReadResult.count_failed, Nat.le_zero_eq] at h hf ⊢
      subst h
      have hs := r'.supply_consume 0
      omega

end Reader

end ParallelGzip
