import ParallelGzip.Deflate.Stream
import ParallelGzip.Proofs.Deflate.Encode

set_option autoImplicit false

/-! # Streams inflate to what was accepted

However bytes come into a stream, and whenever it is asked to compress what is pending, what it has
put out inflates to the bytes accepted but those that are pending. `Stream.Holds` says so, and every
request preserves it: a block is taken from the front of what is pending, and it reaches back into a
window that is the end of what has been compressed. -/

namespace ParallelGzip

namespace Deflate

namespace Stream

/-- Of the bytes accepted, `data`, those that are not pending are what the bytes put out, `written`,
    inflate to, and the window is the end of them. -/
def Holds (s : Stream) (written data : Bytes) : Prop :=
  ∃ compressed, Inflates written #[] compressed ∧ s.window <:+ compressed ∧
    data = compressed ++ s.pending.toList

theorem holds_new (effort : Nat) : (new effort).Holds [] [] :=
  ⟨[], .nil #[], List.suffix_rfl, rfl⟩

variable {s : Stream} {written data bytes : Bytes} {n : Nat}

/-- When nothing is pending, all that has been accepted has been put out. -/
theorem Holds.inflates (holds : s.Holds written data) (none : s.pending.size = 0) :
    Inflates written #[] data := by
  obtain ⟨compressed, inflates, -, rfl⟩ := holds
  rwa [Array.eq_empty_of_size_eq_zero none, Array.toList_empty, List.append_nil]

/-! ## Blocks -/

/-- Bytes that inflate to the first `n` pending ones behind the window stand for them. -/
theorem Holds.advance (holds : s.Holds written data)
    (stands : ∀ (history : Array UInt8) (base : Bytes), history.toList = base ++ s.window →
      Inflates bytes history (s.pending.toList.take n)) :
    (s.advance n).Holds (written ++ bytes) data := by
  obtain ⟨compressed, inflates, window, rfl⟩ := holds
  obtain ⟨base, ends⟩ := window
  have follows : Inflates bytes ((#[] : Array UInt8) ++ compressed) (s.pending.toList.take n) :=
    stands _ base (by rw [Array.toList_appendList, List.nil_append, ends])
  have taken : (s.pending.extract 0 n).toList = s.pending.toList.take n := by simp
  have left : (s.pending.extract n s.pending.size).toList = s.pending.toList.drop n := by
    rw [Array.toList_extract, List.extract_eq_take_drop, List.take_of_length_le (by simp)]
  refine ⟨_, inflates.append follows, ?_, ?_⟩
  · simp only [Stream.advance, taken, ← ends, List.append_assoc]
    exact (windowOf_isSuffix _).trans (List.suffix_append base _)
  · show _ = _ ++ (s.pending.extract n s.pending.size).toList
    rw [left, List.append_assoc, List.take_append_drop]

theorem Holds.putStored (holds : s.Holds written data) (n : Nat) {mark : Bytes}
    (hmark : ∀ history, IsOpen mark history []) :
    (s.putStored n mark).2.Holds (written ++ (s.putStored n mark).1) data := by
  refine holds.advance ?_
  intro history base _
  have taken : (s.pending.extract 0 n).toList = s.pending.toList.take n := by simp
  rw [Stream.putStored, taken]
  exact ((isOpen_store _ history).append_nil (hmark _)).inflates

theorem Holds.putBlock (holds : s.Holds written data) (stop limit : Nat) {mark : Bytes}
    (hmark : ∀ history, IsOpen mark history []) :
    let found := tokens s.effort s.window s.pending stop limit
    let block := s.putBlock found (tokensLength found) mark
    block.2.Holds (written ++ block.1) data := by
  intro found block
  refine holds.advance ?_
  intro history base before
  obtain ⟨last, cuts⟩ := exists_cuts_tokens s.effort s.window s.pending stop limit
  -- the tokens are cut from the window and what is pending, behind the window
  have text : (s.window.toArray ++ s.pending).toList.drop s.window.length = s.pending.toList := by
    simp
  have upTo : history.toList = base ++ (s.window.toArray ++ s.pending).toList.take
      s.window.length := by simpa using before
  have inflates := (isOpen_encodeBlock mark hmark cuts (by simp) upTo).inflates
  rw [text] at inflates
  have taken : (s.pending.extract 0 (tokensLength found)).toList =
      s.pending.toList.take (tokensLength found) := by simp
  show Inflates (encodeBlock found _ mark) history _
  rw [taken]
  exact inflates

/-- Looking for a whole block. -/
theorem Holds.step (holds : s.Holds written data) :
    s.step.2.Holds (written ++ s.step.1.getD []) data := by
  have same : written ++ Option.getD none [] = written := List.append_nil written
  have unmarked (history : Array UInt8) : IsOpen [] history [] := .nil history
  rw [Stream.step]
  split
  · rwa [same]
  · split
    · exact holds.putStored _ unmarked
    · dsimp only
      split
      · rwa [same]
      · exact holds.putBlock _ _ unmarked

theorem isOpen_mark (s : Stream) (n : Nat) (history : Array UInt8) :
    IsOpen (if s.pending.size ≤ n then syncMark else []) history [] := by
  split
  · exact isOpen_syncMark history
  · exact .nil history

theorem Holds.part (holds : s.Holds written data) :
    s.part.2.Holds (written ++ s.part.1) data := by
  rw [Stream.part]
  dsimp only
  split
  · exact holds.putStored _ (isOpen_mark s _)
  · exact holds.putBlock _ _ (isOpen_mark s _)

/-! ## Requests -/

theorem Holds.settle (holds : s.Holds written data) :
    s.settle.2.Holds (written ++ s.settle.1) data := by
  fun_induction Stream.settle s generalizing written with
  | case1 s bytes s' step more s'' settled ih =>
    have next := holds.step
    rw [step] at next
    have later := ih next
    rwa [settled, List.append_assoc] at later
  | case2 s s' step =>
    have next := holds.step
    rwa [step] at next

/-- Accepting bytes. -/
theorem Holds.give (holds : s.Holds written data) (more : Bytes) :
    (s.give more).2.Holds (written ++ (s.give more).1) (data ++ more) := by
  obtain ⟨compressed, inflates, window, rfl⟩ := holds
  obtain ⟨effort, pending, window', due, accepted⟩ := s
  refine Holds.settle ⟨compressed, inflates, window, ?_⟩
  rw [List.append_assoc, Array.toList_appendList]

/-- Behind this nothing is pending. -/
theorem Holds.finish (holds : s.Holds written data) :
    Inflates (written ++ s.finish.1) #[] data := by
  fun_induction Stream.finish s generalizing written with
  | case1 s none =>
    rw [List.append_nil]
    exact holds.inflates none
  | case2 s some bytes s' part more s'' finished ih =>
    have next := holds.part
    rw [part] at next
    have later := ih next
    rwa [finished, List.append_assoc] at later

end Stream

end Deflate

end ParallelGzip
