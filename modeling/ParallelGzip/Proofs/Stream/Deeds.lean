import ParallelGzip.Proofs.Requests

set_option autoImplicit false

/-! # What has been done with a sink

A caller that offers bytes may see some of them taken and offers the rest again, or something else.
`Sink.Does` says which requests have been made and how much each of them took; none of them failed.
Behind a buffer they come to uses: what has been taken has been written
(`BufferedSink.Follows.does`). -/

namespace ParallelGzip

/-! ## Requests and their answers -/

/-- Something that has been done with a sink. -/
inductive Deed
  /-- These bytes were offered, and so many of them taken. -/
  | write (offered : Bytes) (taken : Nat)
  | flush

namespace Deed

/-- What has been taken. -/
def data : Deed → Bytes
  | write offered taken => offered.take taken
  | flush => []

/-- The use it comes to. -/
def use : Deed → Sink.Use
  | write offered taken => .writeAll (offered.take taken)
  | flush => .flush

/-- A use of which everything is taken at once. -/
def ofUse : Sink.Use → Deed
  | .writeAll data => write data data.length
  | .flush => flush

/-- Whether it was to flush. -/
def isFlush : Deed → Bool
  | write _ _ => false
  | flush => true

theorem data_use (deed : Deed) : deed.use.data = deed.data := by cases deed <;> rfl

theorem isFlush_use (deed : Deed) : deed.use.isFlush = deed.isFlush := by cases deed <;> rfl

theorem flatMap_data_use (deeds : List Deed) :
    (deeds.map use).flatMap Sink.Use.data = deeds.flatMap data := by
  rw [List.flatMap_map]
  exact congrArg (deeds.flatMap ·) (funext data_use)

theorem countP_isFlush_use (deeds : List Deed) :
    (deeds.map use).countP Sink.Use.isFlush = deeds.countP isFlush := by
  rw [List.countP_map]
  exact congrArg (deeds.countP ·) (funext isFlush_use)

end Deed

namespace Sink

section Does

variable {ω ω' : Type} [Sink ω] [Sink ω']

/-- This has been done with the sink, one after the other, and it is left like this. -/
inductive Does : ω → List Deed → ω → Prop
  | nil {w : ω} : Does w [] w
  | write {w w' left : ω} {offered : Bytes} {taken : Nat} {deeds : List Deed}
      (wrote : Sink.write w offered = (.wrote taken, w')) (later : Does w' deeds left) :
      Does w (.write offered taken :: deeds) left
  | flush {w w' left : ω} {deeds : List Deed} (flushed : Sink.flush w = (.done, w'))
      (later : Does w' deeds left) : Does w (.flush :: deeds) left

/-- A sink that passes its requests on. -/
structure PassesOn (face : ω → ω') : Prop where
  write : ∀ w bytes,
    Sink.write (face w) bytes = ((Sink.write w bytes).1, face (Sink.write w bytes).2)
  flush : ∀ w, Sink.flush (face w) = ((Sink.flush w).1, face (Sink.flush w).2)

variable {face : ω → ω'} {w : ω} {deeds : List Deed}

/-- What is done with it is done with the sink behind it. -/
theorem Does.behind (passes : PassesOn face) {left : ω'} (does : Does (face w) deeds left) :
    ∃ w', left = face w' ∧ Does w deeds w' := by
  generalize begun : face w = v at does
  induction does generalizing w with
  | nil => exact ⟨w, begun.symm, .nil⟩
  | write wrote later ih =>
    subst begun
    rw [passes.write] at wrote
    obtain ⟨answer, rfl⟩ := Prod.mk.inj wrote
    obtain ⟨w', same, behind⟩ := ih rfl
    exact ⟨w', same, .write (Prod.ext answer rfl) behind⟩
  | flush flushed later ih =>
    subst begun
    rw [passes.flush] at flushed
    obtain ⟨answer, rfl⟩ := Prod.mk.inj flushed
    obtain ⟨w', same, behind⟩ := ih rfl
    exact ⟨w', same, .flush (Prod.ext answer rfl) behind⟩

theorem Does.passedOn (passes : PassesOn face) {w' : ω} (does : Does w deeds w') :
    Does (face w) deeds (face w') := by
  induction does with
  | nil => exact .nil
  | write wrote later ih =>
    refine .write ?_ ih
    rw [passes.write, wrote]
  | flush flushed later ih =>
    refine .flush ?_ ih
    rw [passes.flush, flushed]

end Does

end Sink

/-! ## Behind a buffer -/

namespace BufferedSink

section Capacity

variable {ω : Type} [Sink ω]

theorem capacity_drain (b : BufferedSink ω) : b.drain.2.capacity = b.capacity := by
  fun_induction drain b with
  | case1 | case2 | case5 | case6 => rfl
  | case3 b some n sink wrote ih | case4 b some cause sink interrupted ih => exact ih

theorem capacity_take (b : BufferedSink ω) (bytes : Bytes) :
    (b.take bytes).2.capacity = b.capacity := by
  rw [take]
  split <;> rfl

theorem capacity_write (b : BufferedSink ω) (bytes : Bytes) :
    (Sink.write b bytes).2.capacity = b.capacity := by
  show (b.write bytes).2.capacity = b.capacity
  have drained := b.capacity_drain
  rw [write]
  split
  · exact b.capacity_take bytes
  · split
    · next b' answer =>
      rw [answer] at drained
      exact (b'.capacity_take bytes).trans drained
    · next answer =>
      rw [answer] at drained
      exact drained
    · next answer =>
      rw [answer] at drained
      exact drained

theorem capacity_flush (b : BufferedSink ω) : (Sink.flush b).2.capacity = b.capacity := by
  show b.flush.2.capacity = b.capacity
  have drained := b.capacity_drain
  rw [flush]
  split
  · next b' answer =>
    rw [answer] at drained
    exact drained
  · next answer =>
    rw [answer] at drained
    exact drained

/-- An offer of nothing does not reach the sink. -/
theorem write_nil {b : BufferedSink ω} (room : 0 < b.capacity) :
    Sink.write b [] = (.wrote 0, b) := by
  show b.write [] = _
  rw [write, if_pos (show [].length ≤ b.room from Nat.zero_le _), take, if_neg]
  · rw [List.append_nil]
    rfl
  · rintro ⟨-, full⟩
    exact absurd full (Nat.not_le.2 room)

end Capacity

section Log

open Sink (Does Matches)

variable {ω : Type} [Sink ω] {R : ω → RequestLog → Prop} {b left : BufferedSink ω}
  {logged : BufferedSink RequestLog} {deeds : List Deed}

/-- A buffer in front of a sink that answers like a log, and the buffer in front of the log. -/
structure Follows (R : ω → RequestLog → Prop) (b : BufferedSink ω)
    (logged : BufferedSink RequestLog) : Prop where
  both : Over R b logged
  gathers : ∃ p, logged.Gathers p
  room : 0 < b.capacity

namespace Follows

theorem write (alike : Sink.Alike R) (follows : Follows R b logged) (data : Bytes) :
    ∃ b' logged', Sink.write b data = (.wrote data.length, b') ∧
      Sink.writeAll logged data = (.done, logged') ∧ Follows R b' logged' := by
  obtain ⟨both, ⟨p, gathers⟩, room⟩ := follows
  -- the buffer does not pass on an offer of nothing, which a log would note
  by_cases none : data = []
  · subst none
    refine ⟨b, logged, write_nil room, ?_, both, ⟨p, gathers⟩, room⟩
    rw [Sink.writeAll, if_pos rfl]
  · obtain ⟨logged', answer, gathers⟩ := gathers.write data
    have together : Matches (Over R) (Sink.write b data) (Sink.write logged data) :=
      both.write alike none
    have same := b.capacity_write data
    rw [answer] at together
    obtain ⟨b', wrote, both⟩ := together.exists_left
    rw [wrote] at same
    exact ⟨b', logged', wrote, Sink.writeAll_of_wrote none answer, both, ⟨_, gathers⟩,
      same.symm ▸ room⟩

theorem flush (alike : Sink.Alike R) (follows : Follows R b logged) :
    ∃ b' logged', Sink.flush b = (.done, b') ∧ Sink.flush logged = (.done, logged') ∧
      Follows R b' logged' := by
  obtain ⟨both, ⟨p, gathers⟩, room⟩ := follows
  obtain ⟨logged', answer, gathers⟩ := gathers.flush
  have together : Matches (Over R) (Sink.flush b) (Sink.flush logged) := both.flush alike
  have same := b.capacity_flush
  rw [answer] at together
  obtain ⟨b', flushed, both⟩ := together.exists_left
  rw [flushed] at same
  exact ⟨b', logged', flushed, answer, both, ⟨_, gathers⟩, same.symm ▸ room⟩

/-- What has been done with the buffer is what the log has been used for. -/
theorem does (alike : Sink.Alike R) (follows : Follows R b logged) (does : Does b deeds left) :
    ∃ logged', Sink.useAll logged (deeds.map Deed.use) = (.done, logged') ∧
      Over R left logged' := by
  induction does generalizing logged with
  | nil => exact ⟨logged, rfl, follows.both⟩
  | @write b b' left offered taken deeds wrote later ih =>
    obtain ⟨next, logged', all, used, follows⟩ := follows.write alike offered
    cases wrote.symm.trans all
    obtain ⟨last, later, both⟩ := ih follows
    refine ⟨last, ?_, both⟩
    rw [List.map_cons, Sink.useAll, Deed.use, List.take_length, Sink.use, used]
    exact later
  | @flush b b' left deeds flushed later ih =>
    obtain ⟨next, logged', done, used, follows⟩ := follows.flush alike
    cases flushed.symm.trans done
    obtain ⟨last, later, both⟩ := ih follows
    refine ⟨last, ?_, both⟩
    rw [List.map_cons, Sink.useAll, Deed.use, Sink.use, used]
    exact later

/-- The buffer takes whatever it is offered. -/
theorem exists_does (alike : Sink.Alike R) (follows : Follows R b logged)
    (uses : List Sink.Use) : ∃ left, Does b (uses.map Deed.ofUse) left := by
  induction uses generalizing b logged with
  | nil => exact ⟨b, .nil⟩
  | cons u uses ih =>
    cases u with
    | writeAll data =>
      obtain ⟨b', logged', wrote, -, follows⟩ := follows.write alike data
      obtain ⟨left, does⟩ := ih follows
      exact ⟨left, .write wrote does⟩
    | flush =>
      obtain ⟨b', logged', flushed, -, follows⟩ := follows.flush alike
      obtain ⟨left, does⟩ := ih follows
      exact ⟨left, .flush flushed does⟩

end Follows

end Log

end BufferedSink

end ParallelGzip
