import ParallelGzip.Stream.Scripted

set_option autoImplicit false

/-! # Recording sinks: sinks whose contents can be told

What a sink holds is told by `contents`, which follows from the answers of the sink: an answer that
it took `n` bytes means that it holds these behind what it held before, an interruption means that
it holds nothing new, and after a failure or a panic it may hold any number of the bytes offered.
Passing everything on adds nothing. -/

namespace ParallelGzip

/-- Whether an answer leaves it open that the sink took the first `k` of the bytes offered. -/
def WriteResult.Took (k : Nat) : WriteResult → Prop
  | wrote n => k = n
  | interrupted _ => k = 0
  | failed _ => True
  | panicked => True

/-- A sink whose contents can be told. -/
class RecordingSink (ω : Type) [Sink ω] where
  contents : ω → Bytes
  contents_write : ∀ w bytes, ∃ k, (Sink.write w bytes).1.Took k ∧
    contents (Sink.write w bytes).2 = contents w ++ bytes.take k
  contents_flush : ∀ w : ω, contents (Sink.flush w).2 = contents w

namespace RecordingSink

variable {ω : Type} [Sink ω] [RecordingSink ω] {w w' : ω} {bytes : Bytes}

theorem contents_of_wrote {n : Nat} (h : Sink.write w bytes = (.wrote n, w')) :
    contents w' = contents w ++ bytes.take n := by
  obtain ⟨k, took, hcontents⟩ := contents_write w bytes
  rw [h] at took hcontents
  obtain rfl : k = n := took
  exact hcontents

theorem contents_of_interrupted {cause : IoError}
    (h : Sink.write w bytes = (.interrupted cause, w')) : contents w' = contents w := by
  obtain ⟨k, took, hcontents⟩ := contents_write w bytes
  rw [h] at took hcontents
  obtain rfl : k = 0 := took
  rw [hcontents, List.take_zero, List.append_nil]

/-- Whatever the answer, the sink holds some of the bytes offered and nothing else in addition. -/
theorem exists_contents_write (w : ω) (bytes : Bytes) :
    ∃ part, part <+: bytes ∧ contents (Sink.write w bytes).2 = contents w ++ part := by
  obtain ⟨k, -, hcontents⟩ := contents_write w bytes
  exact ⟨bytes.take k, List.take_prefix k bytes, hcontents⟩

/-- Bytes that have all been written are there. -/
theorem contents_of_writeAll_done (h : Sink.writeAll w bytes = (.done, w')) :
    contents w' = contents w ++ bytes := by
  fun_induction Sink.writeAll w bytes with
  | case1 w =>
    cases h
    rw [List.append_nil]
  | case3 w bytes hne n w1 hw ih =>
    rw [ih h, contents_of_wrote hw, List.append_assoc, List.take_append_drop]
  | case4 w bytes hne cause w1 hw ih => rw [ih h, contents_of_interrupted hw]
  | case2 | case5 | case6 => cases h

end RecordingSink

/-! ## Instances -/

/-- A sink in memory is its contents. -/
instance : RecordingSink (Array UInt8) where
  contents := Array.toList
  contents_write w bytes := by
    refine ⟨bytes.length, rfl, ?_⟩
    simp [Sink.write]
  contents_flush _ := rfl

/-- A scripted sink keeps what it takes. -/
instance : RecordingSink ScriptedSink where
  contents w := w.collected.toList
  contents_write w bytes := by
    have unchanged : w.collected.toList = w.collected.toList ++ bytes.take 0 := by
      rw [List.take_zero, List.append_nil]
    simp only [Sink.write, ScriptedSink.write]
    split
    · refine ⟨0, ?_, unchanged⟩
      split <;> trivial
    · split
      · exact ⟨0, trivial, unchanged⟩
      · exact ⟨0, rfl, unchanged⟩
      · split
        · exact ⟨0, rfl, unchanged⟩
        · split
          · exact ⟨0, trivial, unchanged⟩
          · next n _ => exact ⟨n, rfl, by simp⟩
  contents_flush w := by
    simp only [Sink.flush, ScriptedSink.flush]
    split
    · rfl
    · split <;> rfl

end ParallelGzip
