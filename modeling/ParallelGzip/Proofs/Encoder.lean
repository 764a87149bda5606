import ParallelGzip.Encoder
import ParallelGzip.Proofs.Deflate.Stream
import ParallelGzip.Proofs.Members
import ParallelGzip.Proofs.Opening
import ParallelGzip.Proofs.Stream.Alike
import ParallelGzip.Proofs.Stream.Unfailing

set_option autoImplicit false

/-! # The member an encoder writes

In memory an encoder accepts everything it is given, however it is used, and when it is finished it
has written one member with what it accepted (`Encoder.Holds`, `Holds.finish`). On any other sink
that neither fails nor interrupts it writes the same bytes behind what is there already
(`Encoder.alike_over`). -/

namespace ParallelGzip

namespace Encoder

open Sink (Use Matches)

/-! ## In memory -/

section Memory

variable {level : Nat} {e : Encoder (Array UInt8)} {data : Bytes}

theorem push_array (sink : Array UInt8) (bytes : Bytes) :
    Sink.push sink bytes = (.done, [], sink ++ bytes) := by
  obtain ⟨sink', pushed, -⟩ := Sink.unfailing_array.push Sink.steady_array (w := sink) trivial bytes
  have written := (Sink.writeAll_of_push_done pushed).2.1
  rw [writeAll_array] at written
  rw [pushed, (Prod.mk.inj written).2]

theorem pushHeader_memory (e : Encoder (Array UInt8)) :
    e.pushHeader = (.done, { e with sink := e.sink ++ e.header, header := [] }) := by
  rw [pushHeader, push_array]

theorem pushTail_memory (e : Encoder (Array UInt8)) :
    e.pushTail = (.done, { e with sink := e.sink ++ e.tail.getD [], tail := some [] }) := by
  rw [pushTail, push_array]

theorem append_append (sink : Array UInt8) (first second : Bytes) :
    sink ++ first ++ second = sink ++ (first ++ second) := Array.toList_inj.1 (by simp)

/-- Writing the buffer leaves at most `least` bytes in it. -/
theorem pushBuffer_memory (least : Nat) (e : Encoder (Array UInt8)) :
    ∃ out last, e.buffer ++ e.held = out ++ last ∧ last.length ≤ least ∧
      e.pushBuffer least = (.done, { e with sink := e.sink ++ out, buffer := last, held := [] }) := by
  fun_induction pushBuffer least e with
  | case1 e rest sink pushed more ih =>
    rw [push_array] at pushed
    cases pushed
    obtain ⟨out, last, split, short, answer⟩ := ih
    rw [List.take_append_drop] at split
    refine ⟨e.buffer ++ out, last, by rw [split, List.append_assoc], short, ?_⟩
    rw [answer, append_append]
  | case2 e rest sink pushed enough =>
    rw [push_array] at pushed
    cases pushed
    exact ⟨e.buffer, e.held, rfl, Nat.le_of_not_lt enough, rfl⟩
  | case3 e result rest sink other pushed =>
    rw [push_array] at pushed
    cases pushed
    exact (other rfl).elim

/-- An encoder that has accepted `data`. What it has written, together with what it is about to
    write, is the header and compressed data that inflates to what is not pending. -/
structure Holds (level : Nat) (e : Encoder (Array UInt8)) (data : Bytes) : Prop where
  made : ∃ out, e.sink.toList ++ e.header ++ (e.buffer ++ e.held) = Frame.wholeHeader level ++ out ∧
    e.body.Holds out data
  crc : e.crc = crc32 data 0
  size : e.size = data.length
  tail : e.tail = none

theorem holds_new (level : Nat) : (new #[] level).Holds level [] where
  made := ⟨[], by simp [new], Deflate.Stream.holds_new _⟩
  crc := (crc32_nil 0).symm
  size := rfl
  tail := rfl

namespace Holds

/-- Compressed data that is put behind the other. -/
theorem put {body : Deflate.Stream} {bytes more : Bytes} (holds : e.Holds level data)
    (goes : ∀ out, e.body.Holds out data → body.Holds (out ++ bytes) (data ++ more)) :
    (Encoder.put { e with
      body := body, crc := crc32 more e.crc, size := e.size + more.length } bytes).Holds level
        (data ++ more) := by
  obtain ⟨⟨out, made, body⟩, crc, size, tail⟩ := holds
  refine ⟨⟨out ++ bytes, ?_, goes out body⟩, ?_, ?_, tail⟩
  · simp only [Encoder.put, List.take_append_drop]
    rw [← List.append_assoc (Frame.wholeHeader level), ← made]
    simp only [List.append_assoc]
  · rw [crc32_append, ← crc]
    rfl
  · rw [List.length_append, ← size]
    rfl

theorem accept (holds : e.Holds level data) (more : Bytes) :
    (e.accept more).Holds level (data ++ more) :=
  holds.put fun _ body => body.give more

/-- As long as there is room something is accepted. -/
theorem take (holds : e.Holds level data) (more : Bytes) :
    (e.take more).2.Holds level (data ++ more.take (e.take more).1) ∧
      (e.take more).1 ≤ more.length ∧
      (more ≠ [] → e.isFull = false → 0 < (e.take more).1) := by
  fun_induction Encoder.take e more generalizing data with
  | case1 e more stops =>
    refine ⟨by rwa [List.take_zero, List.append_nil], Nat.zero_le _, ?_⟩
    intro some room
    simp [some, room] at stops
  | case2 e more goes n later e' result =>
    rename_i ih
    have room := e.body.room_pos
    have some : 0 < more.length := by
      refine List.length_pos_iff.2 ?_
      rintro rfl
      simp at goes
    obtain ⟨now, bound, -⟩ := ih (holds.accept (more.take n))
    rw [result] at now bound
    dsimp only at now bound ⊢
    have few : n ≤ more.length := Nat.min_le_left _ _
    rw [List.length_drop] at bound
    refine ⟨?_, by omega, fun _ _ => by omega⟩
    rwa [List.append_assoc, ← List.take_add] at now

/-- Compressing a part of what is pending. -/
theorem part (holds : e.Holds level data) {bytes : Bytes} {body : Deflate.Stream}
    (parted : e.body.part = (bytes, body)) :
    (Encoder.put { e with body := body } bytes).Holds level data := by
  have grows : ∀ out, e.body.Holds out data → body.Holds (out ++ bytes) (data ++ []) := by
    intro out held
    have next := held.part
    rw [parted] at next
    rwa [List.append_nil]
  have next := holds.put grows
  rwa [crc32_nil, List.append_nil] at next

theorem header_sync (e : Encoder (Array UInt8)) : e.sync.header = e.header := by
  fun_induction Encoder.sync e with
  | case1 e full => rfl
  | case2 e room bytes body parted e' none => rfl
  | case3 e room bytes body parted e' some ih => exact ih

theorem sync (holds : e.Holds level data) : e.sync.Holds level data := by
  fun_induction Encoder.sync e with
  | case1 e full => exact holds
  | case2 e room bytes body parted e' none => exact holds.part parted
  | case3 e room bytes body parted e' some ih => exact ih (holds.part parted)

/-- Writing some of what is there changes nothing of what is written in the end. -/
theorem pushed {sink : Array UInt8} {header buffer held : Bytes} (holds : e.Holds level data)
    (same : sink.toList ++ header ++ (buffer ++ held) =
      e.sink.toList ++ e.header ++ (e.buffer ++ e.held)) :
    Holds level { e with sink := sink, header := header, buffer := buffer, held := held } data := by
  obtain ⟨⟨out, made, body⟩, crc, size, tail⟩ := holds
  exact ⟨⟨out, same.trans made, body⟩, crc, size, tail⟩

/-! ### Requests -/

theorem pushHeader (holds : e.Holds level data) :
    ∃ e', e.pushHeader = (.done, e') ∧ e'.Holds level data ∧ e'.header = [] :=
  ⟨_, pushHeader_memory e, holds.pushed (by simp), rfl⟩

theorem pushBuffer (holds : e.Holds level data) (written : e.header = []) (least : Nat) :
    ∃ e', e.pushBuffer least = (.done, e') ∧ e'.Holds level data ∧ e'.header = [] ∧
      e'.buffer.length ≤ least := by
  obtain ⟨out, last, split, short, answer⟩ := pushBuffer_memory least e
  refine ⟨_, answer, holds.pushed ?_, written, short⟩
  rw [split, written]
  simp

/-- A request to write accepts something if it offers something. -/
theorem write (holds : e.Holds level data) (more : Bytes) :
    ∃ n e', Sink.write e more = (.wrote n, e') ∧ e'.Holds level (data ++ more.take n) ∧
      n ≤ more.length ∧ (more ≠ [] → 0 < n) := by
  obtain ⟨e₁, answer₁, holds, written⟩ := holds.pushHeader
  obtain ⟨e₂, answer₂, holds, -, short⟩ := holds.pushBuffer written (bufferSize - 1)
  have room : e₂.isFull = false := by
    have size : 0 < bufferSize := by decide
    rw [isFull, decide_eq_false_iff_not]
    omega
  obtain ⟨holds, few, pos⟩ := holds.take more
  refine ⟨_, _, ?_, holds, few, fun some => pos some room⟩
  show Encoder.write e more = _
  rw [Encoder.write, makeRoom, answer₁]
  dsimp only
  rw [answer₂]

theorem writeAll (holds : e.Holds level data) (more : Bytes) :
    ∃ e', Sink.writeAll e more = (.done, e') ∧ e'.Holds level (data ++ more) := by
  fun_induction Sink.writeAll e more generalizing data with
  | case1 e => exact ⟨e, rfl, by rwa [List.append_nil]⟩
  | case3 e more some n e' answers ih =>
    obtain ⟨k, e'', answer, next, -⟩ := holds.write more
    cases answers.symm.trans answer
    have later := ih next
    rwa [List.append_assoc, List.take_append_drop] at later
  | case2 e more some e' answers =>
    obtain ⟨k, e'', answer, -, -, pos⟩ := holds.write more
    cases answers.symm.trans answer
    exact absurd (pos some) (Nat.lt_irrefl 0)
  | case4 e more some cause e' answers | case5 e more some cause e' answers
  | case6 e more some e' answers =>
    obtain ⟨k, e'', answer, -⟩ := holds.write more
    cases answers.symm.trans answer

theorem flush (holds : e.Holds level data) :
    ∃ e', Sink.flush e = (.done, e') ∧ e'.Holds level data := by
  obtain ⟨e₁, answer₁, holds, written⟩ := holds.pushHeader
  have header : e₁.sync.header = [] := (header_sync e₁).trans written
  obtain ⟨e₂, answer₂, holds, -⟩ := holds.sync.pushBuffer header 0
  refine ⟨_, ?_, holds⟩
  show Encoder.flush e = _
  rw [Encoder.flush, answer₁]
  dsimp only
  rw [pushBody, answer₂]
  rfl

theorem useAll (holds : e.Holds level data) (uses : List Use) :
    ∃ e', Sink.useAll e uses = (.done, e') ∧ e'.Holds level (data ++ uses.flatMap Use.data) := by
  induction uses generalizing e data with
  | nil => exact ⟨e, rfl, by rwa [List.flatMap_nil, List.append_nil]⟩
  | cons u uses ih =>
    have used : ∃ e', Sink.use e u = (.done, e') ∧ e'.Holds level (data ++ u.data) := by
      cases u with
      | writeAll more => exact holds.writeAll more
      | flush =>
        rw [Use.data, List.append_nil]
        exact holds.flush
    obtain ⟨e', answer, next⟩ := used
    rw [Sink.useAll, answer, List.flatMap_cons, ← List.append_assoc]
    exact ih next

/-- A finished encoder has written a member. -/
theorem finish (holds : e.Holds level data) :
    ∃ e', e.finish = (.done, e') ∧ IsMember e'.sink.toList data := by
  obtain ⟨e₁, answer₁, holds, written⟩ := holds.pushHeader
  obtain ⟨e₂, answer₂, holds, written, -⟩ := holds.pushBuffer written 0
  obtain ⟨⟨out, made, body⟩, crc, size, tail⟩ := holds
  have ended : e₂.endBody = Encoder.put { e₂ with
      body := e₂.body.finish.2, tail := some (Frame.trailer e₂.crc e₂.size) }
        (e₂.body.finish.1 ++ Frame.emptyFinalBlock) := by
    rw [endBody, tail]
  obtain ⟨rest, last, split, short, answer₃⟩ := pushBuffer_memory 0 e₂.endBody
  obtain rfl := List.length_eq_zero_iff.1 (Nat.le_zero.1 short)
  have left : e₂.buffer ++ e₂.held ++ (e₂.body.finish.1 ++ Frame.emptyFinalBlock) = rest := by
    rw [List.append_nil, ended] at split
    rw [← split]
    simp only [Encoder.put, List.take_append_drop]
  have whole : (e₂.endBody.sink ++ rest ++ e₂.endBody.tail.getD []).toList =
      Frame.wholeHeader level ++ (out ++ e₂.body.finish.1
        ++ Frame.memberEnd (crc32 data 0) data.length none) := by
    rw [written, List.append_nil] at made
    rw [← left, ended, ← crc, ← size, Frame.memberEnd]
    simp only [Encoder.put, Array.toList_appendList, Option.getD_some, List.append_assoc,
      List.append_nil]
    rw [← List.append_assoc (Frame.wholeHeader level), ← made]
    simp only [List.append_assoc]
  refine ⟨{ e₂.endBody with
    sink := e₂.endBody.sink ++ rest ++ e₂.endBody.tail.getD []
    buffer := [], held := [], tail := some [] }, ?_, ?_⟩
  · rw [Encoder.finish, answer₁]
    dsimp only
    rw [finishBody, pushBody, answer₂]
    dsimp only
    rw [pushBody, answer₃]
    dsimp only
    rw [pushTail_memory]
    rfl
  · dsimp only
    rw [whole]
    exact isMember_of_wholeHeader body.finish level

end Holds

end Memory

/-! ## On other sinks -/

section Onto

variable {ω ω' : Type}

/-- The same encoder on another sink. -/
def onto (e : Encoder ω) (sink : ω') : Encoder ω' :=
  ⟨sink, e.header, e.body, e.buffer, e.held, e.tail, e.crc, e.size⟩

/-- What an encoder accepts has nothing to do with its sink. -/
theorem take_onto (e : Encoder ω) (sink : ω') (data : Bytes) :
    (e.onto sink).take data = ((e.take data).1, (e.take data).2.onto sink) := by
  fun_induction Encoder.take e data with
  | case1 e data stops =>
    have stops : (data = [] || (e.onto sink).isFull) = true := stops
    rw [take, if_pos stops]
  | case2 e data goes n later e' result =>
    rename_i ih
    have goes : ¬(data = [] || (e.onto sink).isFull) = true := goes
    rw [result] at ih
    rw [take, if_neg goes]
    exact congrArg (fun answer => (n + answer.1, answer.2)) ih

theorem sync_eq (e : Encoder ω) :
    e.sync =
      if e.isFull then e
      else
        let e' := { e with body := e.body.part.2 }.put e.body.part.1
        if e.body.part.2.pending.size = 0 then e' else e'.sync := by
  rw [sync]

theorem sync_onto (e : Encoder ω) (sink : ω') : (e.onto sink).sync = e.sync.onto sink := by
  fun_induction Encoder.sync e with
  | case1 e full =>
    have full : (e.onto sink).isFull = true := full
    rw [sync_eq, if_pos full]
  | case2 e room bytes body parted e' none =>
    have room : ¬(e.onto sink).isFull = true := room
    have parted : (e.onto sink).body.part = (bytes, body) := parted
    rw [sync_eq, if_neg room, parted]
    exact if_pos none
  | case3 e room bytes body parted e' some ih =>
    have room : ¬(e.onto sink).isFull = true := room
    have parted : (e.onto sink).body.part = (bytes, body) := parted
    rw [sync_eq, if_neg room, parted]
    exact (if_neg some).trans ih

theorem endBody_onto (e : Encoder ω) (sink : ω') : (e.onto sink).endBody = e.endBody.onto sink := by
  unfold endBody
  cases h : e.tail with
  | none => simp only [onto, h]; rfl
  | some rest => simp only [onto, h]

theorem sink_take (e : Encoder ω) (data : Bytes) : (e.take data).2.sink = e.sink := by
  fun_induction Encoder.take e data with
  | case1 e data stops => rfl
  | case2 e data goes n later e' result =>
    rename_i ih
    rwa [result] at ih

theorem sink_sync (e : Encoder ω) : e.sync.sink = e.sink := by
  fun_induction Encoder.sync e with
  | case1 e full => rfl
  | case2 e room bytes body parted e' none => rfl
  | case3 e room bytes body parted e' some ih => exact ih

theorem sink_endBody (e : Encoder ω) : e.endBody.sink = e.sink := by
  unfold endBody
  cases e.tail with
  | none => rfl
  | some rest => rfl

end Onto

section InStep

variable {ω ω' : Type} [Sink ω] [Sink ω']

/-- Whatever is pushed to sinks that stand in this relation goes to both, and they stand in it
    again. -/
structure InStep (S : ω → ω' → Prop) : Prop where
  push : ∀ {w : ω} {w' : ω'}, S w w' → ∀ bytes, ∃ v v', Sink.push w bytes = (.done, [], v) ∧
    Sink.push w' bytes = (.done, [], v') ∧ S v v'
  flush : ∀ {w : ω} {w' : ω'}, S w w' → Matches S (Sink.flush w) (Sink.flush w')

/-- Encoders that are the same but for their sinks, which stand in relation. -/
inductive Over (S : ω → ω' → Prop) (e : Encoder ω) : Encoder ω' → Prop
  | intro {w' : ω'} (related : S e.sink w') : Over S e (e.onto w')

variable {S : ω → ω' → Prop} {e : Encoder ω} {e' : Encoder ω'}

namespace Over

theorem pushHeader (inStep : InStep S) (both : Over S e e') :
    ∃ f f', e.pushHeader = (.done, f) ∧ e'.pushHeader = (.done, f') ∧ Over S f f' := by
  obtain @⟨w', related⟩ := both
  obtain ⟨v, v', pushed, pushed', related⟩ := inStep.push related e.header
  have pushed' : Sink.push (e.onto w').sink (e.onto w').header = (.done, [], v') := pushed'
  rw [Encoder.pushHeader, Encoder.pushHeader, pushed, pushed']
  exact ⟨_, _, rfl, rfl, .intro related⟩

theorem pushTail (inStep : InStep S) (both : Over S e e') :
    ∃ f f', e.pushTail = (.done, f) ∧ e'.pushTail = (.done, f') ∧ Over S f f' := by
  obtain @⟨w', related⟩ := both
  obtain ⟨v, v', pushed, pushed', related⟩ := inStep.push related (e.tail.getD [])
  have pushed' : Sink.push (e.onto w').sink ((e.onto w').tail.getD []) = (.done, [], v') := pushed'
  rw [Encoder.pushTail, Encoder.pushTail, pushed, pushed']
  exact ⟨_, _, rfl, rfl, .intro related⟩

theorem pushBuffer (inStep : InStep S) (both : Over S e e') (least : Nat) :
    ∃ f f', e.pushBuffer least = (.done, f) ∧ e'.pushBuffer least = (.done, f') ∧
      Over S f f' := by
  fun_induction Encoder.pushBuffer least e generalizing e' with
  | case1 e rest sink pushed more ih =>
    obtain @⟨w', related⟩ := both
    obtain ⟨v, v', pushed₁, pushed', related⟩ := inStep.push related e.buffer
    cases pushed.symm.trans pushed₁
    have pushed' : Sink.push (e.onto w').sink (e.onto w').buffer = (.done, [], v') := pushed'
    have more : least < (e.onto w').held.length := more
    rw [Encoder.pushBuffer.eq_def least (e.onto w'), pushed']
    dsimp only
    rw [if_pos more]
    exact ih (.intro related)
  | case2 e rest sink pushed enough =>
    obtain @⟨w', related⟩ := both
    obtain ⟨v, v', pushed₁, pushed', related⟩ := inStep.push related e.buffer
    cases pushed.symm.trans pushed₁
    have pushed' : Sink.push (e.onto w').sink (e.onto w').buffer = (.done, [], v') := pushed'
    have enough : ¬least < (e.onto w').held.length := enough
    rw [Encoder.pushBuffer.eq_def least (e.onto w'), pushed']
    dsimp only
    rw [if_neg enough]
    exact ⟨_, _, rfl, rfl, .intro related⟩
  | case3 e result rest sink other pushed =>
    obtain ⟨related⟩ := both
    obtain ⟨v, v', pushed₁, -⟩ := inStep.push related e.buffer
    cases pushed.symm.trans pushed₁
    exact (other rfl).elim

theorem makeRoom (inStep : InStep S) (both : Over S e e') :
    ∃ f f', e.makeRoom = (.done, f) ∧ e'.makeRoom = (.done, f') ∧ Over S f f' := by
  obtain ⟨f, f', pushed, pushed', both⟩ := both.pushHeader inStep
  rw [Encoder.makeRoom, Encoder.makeRoom, pushed, pushed']
  exact both.pushBuffer inStep _

omit [Sink ω] [Sink ω'] in
theorem take (both : Over S e e') (data : Bytes) :
    Matches (Over S) (e.take data) (e'.take data) := by
  obtain ⟨related⟩ := both
  rw [take_onto]
  exact .intro _ (.intro (e.sink_take data ▸ related))

omit [Sink ω] [Sink ω'] in
theorem sync (both : Over S e e') : Over S e.sync e'.sync := by
  obtain ⟨related⟩ := both
  rw [sync_onto]
  exact .intro (e.sink_sync ▸ related)

omit [Sink ω] [Sink ω'] in
theorem endBody (both : Over S e e') : Over S e.endBody e'.endBody := by
  obtain ⟨related⟩ := both
  rw [endBody_onto]
  exact .intro (e.sink_endBody ▸ related)

/-! ### Requests -/

theorem write (inStep : InStep S) (both : Over S e e') (data : Bytes) :
    Matches (Over S) (e.write data) (e'.write data) := by
  obtain ⟨f, f', made, made', both⟩ := both.makeRoom inStep
  obtain ⟨n, g, g', taken, taken', both⟩ := (both.take data).exists_both
  rw [Encoder.write, Encoder.write, made, made']
  dsimp only
  rw [taken, taken']
  exact .intro _ both

theorem flush (inStep : InStep S) (both : Over S e e') :
    Matches (Over S) (e.flush) (e'.flush) := by
  obtain ⟨f, f', pushed, pushed', both⟩ := both.pushHeader inStep
  obtain ⟨g, g', written, written', both⟩ := both.sync.pushBuffer inStep 0
  rw [Encoder.flush, Encoder.flush, pushed, pushed']
  dsimp only [pushBody]
  rw [written, written']
  obtain @⟨w', related⟩ := both
  have flushed : Matches S (Sink.flush g.sink) (Sink.flush (g.onto w').sink) :=
    inStep.flush related
  obtain ⟨result, v, v', flushed, flushed', related⟩ := flushed.exists_both
  dsimp only
  rw [flushed, flushed']
  exact .intro _ (.intro related)

theorem finishBody (inStep : InStep S) (both : Over S e e') :
    ∃ f f', e.finishBody = (.done, f) ∧ e'.finishBody = (.done, f') ∧ Over S f f' := by
  obtain ⟨f, f', written, written', both⟩ := both.pushBuffer inStep 0
  rw [Encoder.finishBody, Encoder.finishBody, pushBody, pushBody, written, written']
  exact both.endBody.pushBuffer inStep 0

theorem finish (inStep : InStep S) (both : Over S e e') :
    ∃ f f', e.finish = (.done, f) ∧ e'.finish = (.done, f') ∧ Over S f f' := by
  obtain ⟨f, f', pushed, pushed', both⟩ := both.pushHeader inStep
  obtain ⟨g, g', written, written', both⟩ := both.finishBody inStep
  obtain ⟨k, k', ended, ended', both⟩ := both.pushTail inStep
  rw [Encoder.finish, Encoder.finish, pushed, pushed']
  dsimp only
  rw [written, written']
  dsimp only
  rw [ended, ended']
  exact ⟨k, k', rfl, rfl, both⟩

end Over

/-- Encoders on sinks in step answer alike. -/
theorem alike_over (inStep : InStep S) : Sink.Alike (Over S) where
  write both _ := both.write inStep _
  flush both := both.flush inStep

end InStep

/-! ## The member -/

section Behind

variable {ω : Type} [Sink ω] [RecordingSink ω] {good : ω → Prop}

/-- A sink that neither fails nor interrupts holds, behind what it held before, what memory does. -/
def Behind (good : ω → Prop) (base : Bytes) (w : ω) (memory : Array UInt8) : Prop :=
  good w ∧ RecordingSink.contents w = base ++ memory.toList

theorem inStep_behind (unfailing : Sink.Unfailing good) (steady : Sink.Steady good)
    (base : Bytes) : InStep (Behind good base) where
  push {w memory} related bytes := by
    obtain ⟨works, holds⟩ := related
    obtain ⟨v, pushed, works⟩ := unfailing.push steady works bytes
    have written := (Sink.writeAll_of_push_done pushed).2.1
    refine ⟨v, _, pushed, push_array memory bytes, works, ?_⟩
    rw [RecordingSink.contents_of_writeAll_done written, holds]
    simp
  flush {w memory} related := by
    obtain ⟨works, holds⟩ := related
    obtain ⟨done, works⟩ := unfailing.flush works
    have same := RecordingSink.contents_flush w
    generalize Sink.flush w = answer at done works same ⊢
    obtain ⟨result, v⟩ := answer
    cases done
    exact .intro FlushResult.done ⟨works, same.trans holds⟩

/-- Before it is given anything. -/
theorem over_new {w : ω} (works : good w) (level : Nat) :
    Over (Behind good (RecordingSink.contents w)) (new w level) (new #[] level) :=
  .intro ⟨works, (List.append_nil _).symm⟩

theorem compress_eq_ok {data : Bytes} {level : Nat} {e e' : Encoder (Array UInt8)}
    (valid : validateLevel level = .ok level)
    (used : Sink.useAll (new #[] level) [.writeAll data] = (.done, e))
    (finished : e.finish = (.done, e')) : compress data level = .ok e'.sink.toList := by
  have written : Sink.writeAll (new (#[] : Array UInt8) level) data = (.done, e) := by
    rw [Sink.useAll] at used
    show Sink.use (new (#[] : Array UInt8) level) (.writeAll data) = _
    split at used
    · next answer =>
      rw [answer]
      exact used
    · next answer stopped =>
      exact absurd used (stopped e)
  rw [compress, valid]
  simp only [bind, Except.bind, written, finished]
  rfl

/-- An encoder that does what one in memory does with what it has accepted, when it is closed, has
    written one member, and lets go of its sink. -/
theorem Over.exists_close (unfailing : Sink.Unfailing good) (steady : Sink.Steady good)
    {base data : Bytes} {level : Nat} {e : Encoder ω} {m : Encoder (Array UInt8)}
    (both : Over (Behind good base) e m) (holds : m.Holds level data) :
    ∃ m' closed filled, m.finish = (.done, m') ∧ e.close = (.done, closed) ∧
      closed.sink = Sink.release filled ∧ good filled ∧
      RecordingSink.contents filled = base ++ m'.sink.toList ∧ IsMember m'.sink.toList data := by
  have inStep := inStep_behind unfailing steady base
  obtain ⟨m', finished, isMember⟩ := holds.finish
  obtain ⟨e', m₁, answer, finished', both⟩ := both.finish inStep
  cases finished.symm.trans finished'
  obtain @⟨memory, related⟩ := both
  have flushed : Matches _ (Sink.flush e'.sink) (FlushResult.done, memory) := inStep.flush related
  obtain ⟨filled, passed, related⟩ := flushed.exists_left
  refine ⟨_, { e' with sink := Sink.release filled }, filled, finished, ?_, rfl, related.1,
    related.2, isMember⟩
  rw [close, answer]
  dsimp only
  rw [passed]

/-- However an encoder is used, when it is closed it has written one member with all the data it has
    been given, and let go of its sink. Of one request it makes what is compressed in memory. -/
theorem exists_close (unfailing : Sink.Unfailing good) (steady : Sink.Steady good) {w : ω}
    (works : good w) {level : Nat} (valid : validateLevel level = .ok level) (uses : List Use) :
    ∃ e closed filled member, Sink.useAll (new w level) uses = (.done, e) ∧
      e.close = (.done, closed) ∧ closed.sink = Sink.release filled ∧ good filled ∧
      RecordingSink.contents filled = RecordingSink.contents w ++ member ∧
      IsMember member (uses.flatMap Use.data) ∧
      ∀ data, uses = [.writeAll data] → compress data level = .ok member := by
  have inStep := inStep_behind unfailing steady (RecordingSink.contents w)
  obtain ⟨m, used, holds⟩ := (holds_new level).useAll uses
  -- on the sink the encoder does what it does in memory
  have together := (alike_over inStep).useAll (over_new works level) uses
  rw [used] at together
  obtain ⟨e, answer, both⟩ := together.exists_left
  obtain ⟨m', closed, filled, finished, closes, released, stays, same, isMember⟩ :=
    both.exists_close unfailing steady holds
  refine ⟨e, closed, filled, _, answer, closes, released, stays, same, isMember, ?_⟩
  rintro data rfl
  exact compress_eq_ok valid used finished

end Behind

end Encoder

end ParallelGzip
