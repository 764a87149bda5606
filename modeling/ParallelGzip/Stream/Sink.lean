import ParallelGzip.Bytes
import ParallelGzip.Error

set_option autoImplicit false

/-! # Sinks: where bytes are written to

A sink answers a request to write with the number of bytes it took, with an interruption, with a
failure, or by panicking. It may take fewer bytes than offered; `writeAll` goes on until all are
taken, `push` until all are taken or an interruption comes. A sink interrupts only finitely often
in a row. -/

namespace ParallelGzip

/-- What a request to write came to. -/
inductive WriteResult
  | wrote (count : Nat)
  | interrupted (cause : IoError)
  | failed (cause : IoError)
  | panicked

/-- What a request to pass everything on came to. -/
inductive FlushResult
  | done
  | failed (cause : IoError)
  | panicked

/-- What pushing bytes came to. -/
inductive PushResult
  | done
  | interrupted (cause : IoError)
  | failed (cause : IoError)
  | panicked

/-- Something bytes can be written to. -/
class Sink (ω : Type) where
  /-- Offer bytes. -/
  write : ω → Bytes → WriteResult × ω
  /-- Pass on everything taken so far. -/
  flush : ω → FlushResult × ω
  /-- Let go of the sink for good. -/
  release : ω → ω
  /-- At most so many interruptions come in a row. -/
  patience : ω → Nat
  patience_write : ∀ w bytes ⦃cause⦄, (write w bytes).1 = .interrupted cause →
    patience (write w bytes).2 < patience w

namespace Sink

/-- The failure of a sink that takes nothing although everything has to be written. -/
def nothingTaken : IoError := .text .writeZero "failed to write whole buffer"

variable {ω : Type} [Sink ω]

/-- Write all of `bytes`; interruptions are retried. -/
def writeAll (w : ω) (bytes : Bytes) : FlushResult × ω :=
  if bytes = [] then (.done, w)
  else
    match _h : Sink.write w bytes with
    | (.wrote 0, w') => (.failed nothingTaken, w')
    | (.wrote (n + 1), w') => writeAll w' (bytes.drop (n + 1))
    | (.interrupted _, w') => writeAll w' bytes
    | (.failed cause, w') => (.failed cause, w')
    | (.panicked, w') => (.panicked, w')
termination_by (bytes.length, Sink.patience w)
decreasing_by
  · next hne =>
    have : 0 < bytes.length := List.length_pos_iff.2 hne
    exact Prod.Lex.left _ _ (by simp only [List.length_drop]; omega)
  · have hp := Sink.patience_write w bytes
    rw [_h] at hp
    exact Prod.Lex.right _ (hp rfl)

/-- Writing begins with one request. -/
theorem writeAll_of_ne_nil (w : ω) {bytes : Bytes} (hne : bytes ≠ []) :
    writeAll w bytes =
      match Sink.write w bytes with
      | (.wrote 0, w') => (.failed nothingTaken, w')
      | (.wrote (n + 1), w') => writeAll w' (bytes.drop (n + 1))
      | (.interrupted _, w') => writeAll w' bytes
      | (.failed cause, w') => (.failed cause, w')
      | (.panicked, w') => (.panicked, w') := by
  rw [writeAll, if_neg hne]
  split <;> next h => simp only [h]

/-- What is taken at once is written. -/
theorem writeAll_of_wrote {w w' : ω} {bytes : Bytes} (hne : bytes ≠ [])
    (wrote : Sink.write w bytes = (.wrote bytes.length, w')) : writeAll w bytes = (.done, w') := by
  obtain ⟨n, count⟩ : ∃ n, bytes.length = n + 1 :=
    Nat.exists_eq_succ_of_ne_zero (mt List.length_eq_zero_iff.1 hne)
  rw [writeAll_of_ne_nil w hne, wrote, count]
  dsimp only
  rw [← count, List.drop_length, writeAll, if_pos rfl]

/-- Write `bytes` until all are taken or something else happens, be it an interruption. What is
    not taken comes back. -/
def push (w : ω) (bytes : Bytes) : PushResult × Bytes × ω :=
  if bytes = [] then (.done, [], w)
  else
    match Sink.write w bytes with
    | (.wrote 0, w') => (.failed (.bare .writeZero), bytes, w')
    | (.wrote (n + 1), w') => push w' (bytes.drop (n + 1))
    | (.interrupted cause, w') => (.interrupted cause, bytes, w')
    | (.failed cause, w') => (.failed cause, bytes, w')
    | (.panicked, w') => (.panicked, bytes, w')
termination_by bytes.length
decreasing_by
  have : 0 < bytes.length := List.length_pos_iff.2 (by assumption)
  simp only [List.length_drop]
  omega

/-- How many interruptions come while all of `bytes` are written. -/
def interruptions (w : ω) (bytes : Bytes) : Nat :=
  if bytes = [] then 0
  else
    match _h : Sink.write w bytes with
    | (.wrote 0, _) => 0
    | (.wrote (n + 1), w') => interruptions w' (bytes.drop (n + 1))
    | (.interrupted _, w') => interruptions w' bytes + 1
    | (.failed _, _) => 0
    | (.panicked, _) => 0
termination_by (bytes.length, Sink.patience w)
decreasing_by
  · next hne =>
    have : 0 < bytes.length := List.length_pos_iff.2 hne
    exact Prod.Lex.left _ _ (by simp only [List.length_drop]; omega)
  · have hp := Sink.patience_write w bytes
    rw [_h] at hp
    exact Prod.Lex.right _ (hp rfl)

/-- Counting begins with one request. -/
theorem interruptions_of_ne_nil (w : ω) {bytes : Bytes} (hne : bytes ≠ []) :
    interruptions w bytes =
      match Sink.write w bytes with
      | (.wrote 0, _) => 0
      | (.wrote (n + 1), w') => interruptions w' (bytes.drop (n + 1))
      | (.interrupted _, w') => interruptions w' bytes + 1
      | (.failed _, _) => 0
      | (.panicked, _) => 0 := by
  rw [interruptions, if_neg hne]
  split <;> next h => simp only [h]

/-- Pushing everything is writing everything, without an interruption. -/
theorem writeAll_of_push_done {w w' : ω} {bytes rest : Bytes}
    (h : push w bytes = (.done, rest, w')) :
    rest = [] ∧ writeAll w bytes = (.done, w') ∧ interruptions w bytes = 0 := by
  fun_induction push w bytes with
  | case1 w =>
    cases h
    exact ⟨rfl, by rw [writeAll, if_pos rfl], by rw [interruptions, if_pos rfl]⟩
  | case3 w bytes hne n w1 hw ih =>
    rw [writeAll_of_ne_nil w hne, interruptions_of_ne_nil w hne]
    simp only [hw]
    exact ih h
  | case2 | case4 | case5 | case6 => cases h

/-- What comes after an interruption is what would have come without stopping for it. -/
theorem writeAll_of_push_interrupted {w w' : ω} {bytes rest : Bytes} {cause : IoError}
    (h : push w bytes = (.interrupted cause, rest, w')) :
    writeAll w bytes = writeAll w' rest ∧ interruptions w bytes = interruptions w' rest + 1 := by
  fun_induction push w bytes with
  | case3 w bytes hne n w1 hw ih =>
    rw [writeAll_of_ne_nil w hne, interruptions_of_ne_nil w hne]
    simp only [hw]
    exact ih h
  | case4 w bytes hne _ w1 hw =>
    cases h
    rw [writeAll_of_ne_nil w hne, interruptions_of_ne_nil w hne]
    simp only [hw, and_self]
  | case1 | case2 | case5 | case6 => cases h

end Sink

/-- A sink in memory takes everything. -/
instance : Sink (Array UInt8) where
  write w bytes := (.wrote bytes.length, w ++ bytes)
  flush w := (.done, w)
  release w := w
  patience _ := 0
  patience_write _ _ _ h := by simp at h

end ParallelGzip
