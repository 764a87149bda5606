import ParallelGzip.Proofs.Pipeline.Program
import ParallelGzip.Proofs.Stream.Alike

set_option autoImplicit false

/-! # What a buffer asks of a writer

A buffer in front of a writer turns uses into requests: it gathers small writes, passes large ones
by, and lets go of what it holds before every flush. `RequestLog` is a sink that notes the requests.
However writes fill the buffer or go past it, the requests ask for the data of the uses, cut where
they flush: `Sink.Use.whole_asked_requests`. -/

namespace ParallelGzip

/-! ## What uses ask for -/

namespace Payloads

open Sink (Use)

/-- What a use asks for. -/
def use (p : Payloads) : Use → Payloads
  | .writeAll data => p.write data
  | .flush => p.cut

/-- What uses ask for, one after the other. -/
def useAll (p : Payloads) (uses : List Use) : Payloads := uses.foldl use p

/-- The payloads of the members that uses ask for: their data, cut at each flush and at the end. -/
def ofUses (uses : List Use) : List Bytes := (empty.useAll uses).cut.whole

theorem flatten_useAll (p : Payloads) (uses : List Use) :
    (p.useAll uses).cut.whole.flatten = p.cut.whole.flatten ++ uses.flatMap Use.data := by
  induction uses generalizing p with
  | nil => exact (List.append_nil _).symm
  | cons u uses ih =>
    rw [useAll, List.foldl_cons, ← useAll, ih, List.flatMap_cons, ← List.append_assoc]
    cases u <;> simp [use, cut, write, Use.data]

theorem length_useAll (p : Payloads) (uses : List Use) :
    (p.useAll uses).cut.whole.length = p.cut.whole.length + uses.countP Use.isFlush := by
  induction uses generalizing p with
  | nil => rfl
  | cons u uses ih =>
    rw [useAll, List.foldl_cons, ← useAll, ih]
    cases u with
    | writeAll data => simp [use, cut, write, Use.isFlush]
    | flush =>
      simp only [use, cut, Use.isFlush, List.length_append, List.countP_cons,
        List.length_cons, List.length_nil, if_true]
      omega

theorem flatten_ofUses (uses : List Use) : (ofUses uses).flatten = uses.flatMap Use.data :=
  flatten_useAll empty uses

/-- Every flush ends a member, and so does the end. -/
theorem length_ofUses (uses : List Use) :
    (ofUses uses).length = uses.countP Use.isFlush + 1 := by
  rw [ofUses, length_useAll, Nat.add_comm]
  rfl

example : ofUses [.writeAll [1], .writeAll [2, 3], .flush, .writeAll [4]] = [[1, 2, 3], [4]] := rfl

end Payloads

/-! ## Noting requests -/

/-- A sink that takes everything and notes what it is asked for. -/
structure RequestLog where
  requests : List Request

namespace RequestLog

instance : Sink RequestLog where
  write log bytes := (.wrote bytes.length, ⟨log.requests ++ [.submit bytes]⟩)
  flush log := (.done, ⟨log.requests ++ [.flushMember]⟩)
  release log := log
  patience _ := 0
  patience_write _ _ _ h := by simp at h

/-- None of the requests is to close. -/
def Open (log : RequestLog) : Prop := (log.requests.any fun r => r.call.closes) = false

theorem Open.concat {log : RequestLog} (opened : log.Open) {r : Request}
    (closes : r.call.closes = false) : (RequestLog.mk (log.requests ++ [r])).Open := by
  rw [Open, List.any_append, opened]
  simpa using closes

end RequestLog

/-- The requests that a buffer of one block makes of a writer when it is used like this and then
    closed. -/
def Sink.Use.requests (blockSize : Nat) (uses : List Sink.Use) : List Request :=
  (Sink.useAll (BufferedSink.new (RequestLog.mk []) blockSize) uses).2.drain.2.sink.requests
    ++ [.close]

namespace BufferedSink

open Sink (Use)

variable {b : BufferedSink RequestLog} {p : Payloads}

/-- What has been asked for, and what is still in the buffer, make up what is to be asked for. -/
structure Gathers (b : BufferedSink RequestLog) (p : Payloads) : Prop where
  asked : (Payloads.asked b.sink.requests).write b.buffer = p
  opened : b.sink.Open

theorem gathers_new (blockSize : Nat) : (new (RequestLog.mk []) blockSize).Gathers .empty :=
  ⟨rfl, rfl⟩

namespace Gathers

theorem submit {bytes : Bytes} (gathers : b.Gathers p) (none : b.buffer = []) :
    Gathers { b with sink := ⟨b.sink.requests ++ [.submit bytes]⟩ } (p.write bytes) := by
  obtain ⟨rfl, opened⟩ := gathers
  refine ⟨?_, opened.concat rfl⟩
  dsimp only
  rw [Payloads.asked_concat, none, Payloads.write_nil, Payloads.write_nil]
  rfl

/-- What the buffer holds is asked for at once. -/
theorem drain (gathers : b.Gathers p) :
    ∃ b', b.drain = (.done, b') ∧ b'.Gathers p ∧ b'.buffer = [] := by
  by_cases none : b.buffer = []
  · rw [BufferedSink.drain, if_pos none]
    exact ⟨b, rfl, gathers, none⟩
  · obtain ⟨rfl, opened⟩ := gathers
    refine ⟨_, b.drain_of_wrote none rfl, ⟨?_, opened.concat rfl⟩, rfl⟩
    dsimp only
    rw [Payloads.asked_concat, Payloads.write_nil]
    rfl

theorem take (gathers : b.Gathers p) (bytes : Bytes) :
    ∃ b', b.take bytes = (.wrote bytes.length, b') ∧ b'.Gathers (p.write bytes) := by
  rw [BufferedSink.take]
  split
  · next past => exact ⟨_, rfl, gathers.submit past.1⟩
  · obtain ⟨rfl, opened⟩ := gathers
    exact ⟨_, rfl, (Payloads.write_write _ _ _).symm, opened⟩

/-- Whether it fits into the buffer, goes past it, or makes it let go of what it holds first:
    everything that is offered is gathered. -/
theorem write (gathers : b.Gathers p) (bytes : Bytes) :
    ∃ b', Sink.write b bytes = (.wrote bytes.length, b') ∧ b'.Gathers (p.write bytes) := by
  show ∃ b', BufferedSink.write b bytes = _ ∧ _
  rw [BufferedSink.write]
  split
  · exact gathers.take bytes
  · obtain ⟨b', drained, gathers, -⟩ := gathers.drain
    rw [drained]
    exact gathers.take bytes

theorem writeAll (gathers : b.Gathers p) (bytes : Bytes) :
    ∃ b', Sink.writeAll b bytes = (.done, b') ∧ b'.Gathers (p.write bytes) := by
  by_cases none : bytes = []
  · subst none
    rw [Sink.writeAll, if_pos rfl, Payloads.write_nil]
    exact ⟨b, rfl, gathers⟩
  · obtain ⟨b', wrote, gathers⟩ := gathers.write bytes
    exact ⟨b', Sink.writeAll_of_wrote none wrote, gathers⟩

theorem flush (gathers : b.Gathers p) :
    ∃ b', Sink.flush b = (.done, b') ∧ b'.Gathers p.cut := by
  obtain ⟨b', drained, ⟨rfl, opened⟩, none⟩ := gathers.drain
  refine ⟨{ b' with sink := ⟨b'.sink.requests ++ [.flushMember]⟩ }, ?_, ?_, opened.concat rfl⟩
  · show BufferedSink.flush b = _
    rw [BufferedSink.flush, drained]
    rfl
  · dsimp only
    rw [Payloads.asked_concat, none, Payloads.write_nil, Payloads.write_nil]
    rfl

theorem useAll (gathers : b.Gathers p) (uses : List Use) :
    ∃ b', Sink.useAll b uses = (.done, b') ∧ b'.Gathers (p.useAll uses) := by
  induction uses generalizing b p with
  | nil => exact ⟨b, rfl, gathers⟩
  | cons u uses ih =>
    have used : ∃ b', Sink.use b u = (.done, b') ∧ b'.Gathers (p.use u) := by
      cases u with
      | writeAll data => exact gathers.writeAll data
      | flush => exact gathers.flush
    obtain ⟨b', answer, next⟩ := used
    rw [Sink.useAll, answer]
    exact ih next

end Gathers

end BufferedSink

namespace Sink.Use

/-- Used like this and then let go of what it holds, a buffer has gathered everything. -/
theorem exists_gathers (blockSize : Nat) (uses : List Use) :
    ∃ b b', Sink.useAll (BufferedSink.new (RequestLog.mk []) blockSize) uses = (.done, b) ∧
      b.drain = (.done, b') ∧ requests blockSize uses = b'.sink.requests ++ [.close] ∧
      b'.sink.Open ∧ (Payloads.asked b'.sink.requests).cut.whole = Payloads.ofUses uses := by
  obtain ⟨b, used, gathers⟩ := (BufferedSink.gathers_new blockSize).useAll uses
  obtain ⟨b', drained, ⟨asked, opened⟩, none⟩ := gathers.drain
  refine ⟨b, b', used, drained, ?_, opened, ?_⟩
  · rw [requests, used]
    dsimp only
    rw [drained]
  · rw [none, Payloads.write_nil] at asked
    rw [asked]
    rfl

/-- What a buffer asks of a writer is what its uses ask for. -/
theorem whole_asked_requests (blockSize : Nat) (uses : List Use) :
    (Payloads.asked (requests blockSize uses)).whole = Payloads.ofUses uses := by
  obtain ⟨b, b', -, -, requests, -, asked⟩ := exists_gathers blockSize uses
  rw [requests, Payloads.asked_concat]
  exact asked

/-- It asks to close at the end and not before. -/
theorem closes_requests (blockSize : Nat) (uses : List Use) :
    ((requests blockSize uses).dropLast.any fun r => r.call.closes) = false ∧
      ((requests blockSize uses).any fun r => r.call.closes) = true := by
  obtain ⟨b, b', -, -, requests, opened, -⟩ := exists_gathers blockSize uses
  rw [requests, List.dropLast_concat, List.any_append]
  exact ⟨opened, Bool.or_true _⟩

end Sink.Use

end ParallelGzip
