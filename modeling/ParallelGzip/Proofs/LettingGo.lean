import ParallelGzip.Proofs.Parting
import ParallelGzip.Proofs.Sessions

set_option autoImplicit false

/-! # Letting go of an output

An output that is let go of without having been closed leaves what it would have left if it had been
closed. With workers that is so because the buffer in front of the writer hands on what it holds in
both cases, and the writer is then asked for the same call (`Pipeline.Run.parts_agree`). Without
workers the encoder goes through the same parts of the member whether it is closed or let go of, and
differs only in what it does when it cannot finish one of them (`Encoder.release_of_close`). -/

namespace ParallelGzip

/-! ## Without workers -/

namespace Encoder

variable {ω : Type} [Sink ω] {e e' closed : Encoder ω}

/-! ### What pushing comes to -/

theorem push_nil (sink : ω) : Sink.push sink [] = (.done, [], sink) := by
  rw [Sink.push, if_pos rfl]

theorem push_of_wrote {sink sink' : ω} {bytes : Bytes} (some : bytes ≠ [])
    (wrote : Sink.write sink bytes = (.wrote bytes.length, sink')) :
    Sink.push sink bytes = (.done, [], sink') := by
  obtain ⟨n, count⟩ : ∃ n, bytes.length = n + 1 :=
    Nat.exists_eq_succ_of_ne_zero (mt List.length_eq_zero_iff.1 some)
  rw [Sink.push, if_neg some, wrote, count]
  dsimp only
  rw [← count, List.drop_length, push_nil]

theorem push_of_interrupted {sink sink' : ω} {bytes : Bytes} {cause : IoError}
    (some : bytes ≠ []) (interrupted : Sink.write sink bytes = (.interrupted cause, sink')) :
    Sink.push sink bytes = (.interrupted cause, bytes, sink') := by
  rw [Sink.push, if_neg some, interrupted]

theorem pushHeader_eq {sink : ω} {rest : Bytes} {result : PushResult}
    (pushed : Sink.push e.sink e.header = (result, rest, sink)) :
    e.pushHeader = (result, { e with sink := sink, header := rest }) := by
  rw [pushHeader, pushed]

theorem pushBody_eq {sink : ω} (held : e.held = [])
    (pushed : Sink.push e.sink e.buffer = (.done, [], sink)) :
    e.pushBody = (.done, { e with sink := sink, buffer := [] }) := by
  rw [pushBody, pushBuffer, pushed, held]
  rfl

theorem pushTail_eq {sink : ω} {rest : Bytes} {result : PushResult}
    (pushed : Sink.push e.sink (e.tail.getD []) = (result, rest, sink)) :
    e.pushTail = (result, { e with sink := sink, tail := some rest }) := by
  rw [pushTail, pushed]

theorem finish_eq {e₁ e₂ : Encoder ω} {result : PushResult}
    (headed : e.pushHeader = (.done, e₁)) (bodied : e₁.finishBody = (.done, e₂))
    (tailed : e₂.pushTail = (result, e')) : e.finish = (settled result, e') := by
  rw [finish, headed]
  dsimp only
  rw [bodied]
  dsimp only
  rw [tailed]

theorem pushBuffer_done (pushed : e.pushBuffer 0 = (.done, e')) :
    e'.buffer = [] ∧ e'.held = [] := by
  fun_induction pushBuffer 0 e with
  | case1 e rest sink answer more ih => exact ih pushed
  | case2 e rest sink answer enough =>
    cases pushed
    exact ⟨List.length_eq_zero_iff.1 (Nat.le_zero.1 (Nat.le_of_not_lt enough)), rfl⟩
  | case3 e result rest sink other answer =>
    cases pushed
    exact (other rfl).elim

/-- Finishing succeeds if each of its parts does. -/
theorem parts_of_finish (finishes : e.finish = (.done, e')) :
    ∃ e₁ e₂, e.pushHeader = (.done, e₁) ∧ e₁.finishBody = (.done, e₂) ∧
      e₂.pushTail = (.done, e') := by
  rcases headed : e.pushHeader with ⟨result, e₁⟩
  rw [finish, headed] at finishes
  cases result with
  | interrupted | failed | panicked => cases finishes
  | done =>
    rcases bodied : e₁.finishBody with ⟨result, e₂⟩
    dsimp only at finishes
    rw [bodied] at finishes
    cases result with
    | interrupted | failed | panicked => cases finishes
    | done =>
      rcases tailed : e₂.pushTail with ⟨result, e₃⟩
      dsimp only at finishes
      rw [tailed] at finishes
      cases result with
      | interrupted | failed | panicked => cases finishes
      | done =>
        cases finishes
        exact ⟨e₁, e₂, rfl, bodied, tailed⟩

/-! ### At the end of the compressed data -/

/-- The compressed data has come to its end, and all of it is written. -/
structure Ended (e : Encoder ω) : Prop where
  buffer : e.buffer = []
  held : e.held = []
  tail : ∃ rest, e.tail = some rest

/-- There is nothing more to do for it then. -/
theorem Ended.finishBody_eq (ended : e.Ended) : e.finishBody = (.done, e) := by
  obtain ⟨sink, header, body, buffer, held, tail, crc, size⟩ := e
  obtain ⟨rfl, rfl, rest, rfl⟩ := ended
  have pushed := pushBody_eq (e := ⟨sink, header, body, [], [], some rest, crc, size⟩) rfl
    (push_nil sink)
  rw [finishBody, pushed]
  exact pushed

/-- Whatever comes of the trailer, the compressed data stays at its end. -/
theorem ended_of_pushTail {result : PushResult} (bodied : e.finishBody = (.done, e'))
    (tailed : e'.pushTail = (result, closed)) : closed.Ended := by
  rcases pushed : e.pushBody with ⟨answer, e₁⟩
  rw [finishBody, pushed] at bodied
  cases answer with
  | interrupted | failed | panicked => cases bodied
  | done =>
    obtain ⟨buffer, held⟩ := pushBuffer_done bodied
    cases tailed
    exact ⟨buffer, held, _, rfl⟩

/-- An encoder is let go of as it is once it has been finished, however that ended, unless the
    compressed data could not be written. -/
theorem release_eq {e₁ e₂ : Encoder ω} {result : PushResult}
    (headed : e.pushHeader = (.done, e₁)) (bodied : e₁.finishBody = (.done, e₂))
    (tailed : e₂.pushTail = (result, e')) : e.release.sink = Sink.release e'.sink := by
  rw [release, finish_eq headed bodied tailed, (ended_of_pushTail bodied tailed).finishBody_eq]

/-- If an encoder can be closed, it leaves the same when it is let go of instead, but that the sink
    has not been told to pass it on. -/
theorem release_of_close (closes : e.close = (.done, closed)) :
    ∃ filled, closed.sink = Sink.release (Sink.flush filled).2 ∧
      e.release.sink = Sink.release filled := by
  rcases finishes : e.finish with ⟨result, e'⟩
  rw [close, finishes] at closes
  cases result with
  | failed | panicked => cases closes
  | done =>
    obtain ⟨-, rfl⟩ := Prod.mk.inj closes
    obtain ⟨e₁, e₂, headed, bodied, tailed⟩ := parts_of_finish finishes
    refine ⟨e'.sink, rfl, ?_⟩
    exact release_eq headed bodied tailed

/-- Where letting go of an encoder is not like closing it: if nothing has been given to it and the
    sink interrupts when the trailer is written, letting go gives up. Closing reports the
    interruption, and writes the rest when it lets go of the encoder then. -/
theorem new_interrupted {d d₁ d₂ d₃ d₄ : ω} {level : Nat} {cause : IoError} {rest : Bytes}
    (header : Sink.push d (Frame.wholeHeader level) = (.done, [], d₁))
    (body : Sink.push d₁ Frame.emptyFinalBlock = (.done, [], d₂))
    (tail : Sink.push d₂ (Frame.trailer 0 0) = (.interrupted cause, rest, d₃))
    (again : Sink.push d₃ rest = (.done, [], d₄)) :
    (new d level).release.sink = Sink.release d₃ ∧
      (new d level).close.1 = .failed cause ∧ (new d level).close.2.sink = Sink.release d₄ := by
  have headed := pushHeader_eq (e := new d level) header
  have bodied : ({ new d level with sink := d₁, header := [] } : Encoder ω).finishBody =
      (.done, { new d level with sink := d₂, header := [], tail := some (Frame.trailer 0 0) }) := by
    have empty : (Deflate.Stream.new (Deflate.effort level)).finish =
        ([], .new (Deflate.effort level)) := by
      rw [Deflate.Stream.finish]
      exact dif_pos rfl
    have ends : ({ new d level with sink := d₁, header := [] } : Encoder ω).endBody =
        { new d level with
          sink := d₁, header := [], buffer := Frame.emptyFinalBlock
          tail := some (Frame.trailer 0 0) } := by
      simp only [endBody, new, empty]
      rfl
    rw [finishBody, pushBody_eq rfl (push_nil d₁)]
    exact (congrArg pushBody ends).trans (pushBody_eq rfl body)
  have tailed := pushTail_eq
    (e := { new d level with sink := d₂, header := [], tail := some (Frame.trailer 0 0) }) tail
  have ended := ended_of_pushTail bodied tailed
  refine ⟨release_eq headed bodied tailed, ?_, ?_⟩
  · rw [close, finish_eq headed bodied tailed]
    rfl
  · rw [close, finish_eq headed bodied tailed]
    exact release_eq (pushHeader_eq (push_nil d₃)) ended.finishBody_eq (pushTail_eq again)

end Encoder

/-! ## Writers -/

namespace Writer

variable {κ ω : Type} [BlockCompressor κ] [Sink ω] {machine : Machine} {options : WriterOptions}
  {sink : ω} {n : Nat} {calls : List Request} {r r' : Request}

/-- What comes of a writer that is asked to end comes of it too if it is asked in another way. -/
theorem parts_as_of_openWith {compressor : Nat → κ} {w : Writer κ ω}
    (valid : options.validate machine = .ok n)
    (opened : openWith machine sink options compressor = .opened w)
    (unclosed : ∀ r ∈ calls, r.call.closes = false) (same : r'.call = r.call)
    {s : Pipeline κ ω} (parts : ∃ h, w.pipeline.Run h s ∧ h.Parts calls r) :
    ∃ h, w.pipeline.Run h s ∧ h.Parts calls r' := by
  obtain ⟨sink', -, start⟩ := pipeline_of_openWith valid opened
  obtain ⟨h, run, parts⟩ := parts
  rw [start] at run ⊢
  obtain ⟨h', run', parts', -⟩ := run.parts_as unclosed parts same
  exact ⟨h', run', parts'⟩

variable {good : ω → Prop}

/-- A run of a writer of the library on a sink that never fails succeeds. -/
theorem parts_succeeds_of_open {w : Writer DeflateCompressor ω} (unfailing : Sink.Unfailing good)
    (opened : Writer.open machine sink options = .opened w) (works : good sink)
    (unclosed : ∀ r ∈ calls, r.call.closes = false) {h : History DeflateCompressor ω}
    {s : Pipeline DeflateCompressor ω} (run : w.pipeline.Run h s) (parts : h.Parts calls r)
    (returned : s.Returned) : ∃ k, s.result = .ok k := by
  obtain ⟨n, valid, sink', header, start⟩ := pipeline_of_open opened
  obtain ⟨_, written, begins⟩ := unfailing.writeAll works (Frame.header options.level)
  cases header.symm.trans written
  rw [start] at run
  have performs := run.performs_of_sinkWorks (WriterOptions.pos_of_validate valid).2.2
    (run.unfailing unfailing begins).2 (Pipeline.any_closes_dropLast parts.requests_eq unclosed)
  exact (performs.result_eq_ok returned).1

variable [RecordingSink ω]

/-- In whatever order the parties take their steps, and however they are asked to end, two runs of a
    writer on a sink that never fails leave the same if one of them succeeds. -/
theorem parts_agree_of_openWith {compressor : Nat → κ} {w : Writer κ ω}
    (unfailing : Sink.Unfailing good) (valid : options.validate machine = .ok n)
    (opened : openWith machine sink options compressor = .opened w) (works : good sink)
    (unclosed : ∀ r ∈ calls, r.call.closes = false) (closes : r.call = .close)
    (closes' : r'.call = .close) {h h' : History κ ω} {s s' : Pipeline κ ω}
    (run : w.pipeline.Run h s) (run' : w.pipeline.Run h' s') (parts : h.Parts calls r)
    (parts' : h'.Parts calls r') (returned : s.Returned) (returned' : s'.Returned) {k : Nat}
    (ok : s.result = .ok k) :
    (∃ k, s'.result = .ok k) ∧
      RecordingSink.contents s'.sink = RecordingSink.contents s.sink := by
  obtain ⟨sink', header, start⟩ := pipeline_of_openWith valid opened
  obtain ⟨_, written, begins⟩ := unfailing.writeAll works (Frame.header options.level)
  cases header.symm.trans written
  rw [start] at run run'
  exact run.parts_agree (compressors_ne_nil valid compressor) run' unclosed parts parts' closes
    closes' (run'.unfailing unfailing begins).2 returned returned' ok

end Writer

/-! ## Outputs -/

/-- The requests that a buffer of one block makes of a writer when it is used like this and then lets
    go of what it holds. -/
def Sink.Use.calls (blockSize : Nat) (uses : List Sink.Use) : List Request :=
  (requests blockSize uses).dropLast

theorem Sink.Use.requests_eq (blockSize : Nat) (uses : List Sink.Use) :
    requests blockSize uses = calls blockSize uses ++ [.close] ∧
      ∀ r ∈ calls blockSize uses, r.call.closes = false := by
  have unclosed := (closes_requests blockSize uses).1
  rw [List.any_eq_false] at unclosed
  refine ⟨?_, fun r hr => Bool.eq_false_iff.2 (unclosed r hr)⟩
  rw [calls, requests, List.dropLast_concat]

/-- To tell a destination to pass everything on makes no difference to the store. -/
theorem Files.storeDestination_release_flush {ω : Type} [Sink ω] (files : Files)
    (d : Destination ω) : (files.storeDestination (Sink.release (Sink.flush d).2)).1 =
      (files.storeDestination (Sink.release d)).1 := by
  cases d with
  | file f => rw [Destination.release_flush_file]
  | stream w => rfl

namespace Output

variable {ω : Type} [Sink ω] [RecordingSink ω]

/-- Two outputs have let go of destinations that held the same, and have the same in the store. -/
def LeaveAlike (files : Files) (first second : Output ω) : Prop :=
  (∃ filled filled', first.destination = Sink.release filled ∧
    second.destination = Sink.release filled' ∧
    RecordingSink.contents filled = RecordingSink.contents filled') ∧
  (files.storeOutput first).1 = (files.storeOutput second).1

variable {good : ω → Prop} {mode : OpenMode} {options : WriterOptions} {files opened : Files}
  {target : Target ω} {output used : Output ω} {deeds : List Deed} {d : Destination ω}

/-- Without workers: if the output can be closed, it leaves the same when it is let go of. -/
theorem leaveAlike_serial {e : Encoder (Destination ω)} {closed : Output ω}
    (closes : (serial e).close = (.done (), closed)) :
    LeaveAlike opened closed (Sink.release (serial e)) := by
  rcases ended : e.close with ⟨result, e'⟩
  rw [Output.close, ended] at closes
  cases result with
  | failed | panicked => cases closes
  | done =>
    cases closes
    obtain ⟨filled, passedOn, letGo⟩ := Encoder.release_of_close ended
    have first : (serial e').destination = _ := passedOn
    have second : (Sink.release (serial e)).destination = _ := letGo
    refine ⟨⟨_, _, first, second, RecordingSink.contents_flush filled⟩, ?_⟩
    rw [Files.storeOutput, Files.storeOutput, first, second]
    exact Files.storeDestination_release_flush opened filled

section Begun

variable {good : Destination ω → Prop}

/-- With workers: the output can be closed and leaves members of all that was taken, also of what is
    in the buffer at the end. Closing it and letting go of it are the same, and so is what any other
    run leaves that makes the same calls, whatever it parts with. -/
theorem exists_closed_like_runs (settings : Settings) {n : Nat} (pos : 0 < n)
    (unfailing : Sink.Unfailing good) {d d' : Destination ω} (works : good d)
    (header : Sink.writeAll d (Frame.header settings.level) = (.done, d')) {threads : Threads}
    {blockSize : Nat} (room : 0 < blockSize)
    (does : Sink.Does (.parallel (.new (Writer.mk
      (.new settings (Pipeline.libraryCompressors settings n) d') threads) blockSize)) deeds used) :
    ∃ closed filled bytes, used.close = (.done (), closed) ∧ Sink.release used = closed ∧
      closed.destination = Sink.release filled ∧
      RecordingSink.contents filled = RecordingSink.contents d ++ bytes ∧
      IsStream bytes (Payloads.ofUses (deeds.map Deed.use)) ∧
      ∀ h s r, Pipeline.Run (.new settings (Pipeline.libraryCompressors settings n) d') h s →
        h.Parts (Sink.Use.calls blockSize (deeds.map Deed.use)) r → r.call = .close →
        s.Returned → (∃ k, s.result = .ok k) ∧
          RecordingSink.contents s.sink = RecordingSink.contents filled := by
  obtain ⟨begun, written, begins⟩ := unfailing.writeAll works (Frame.header settings.level)
  cases header.symm.trans written
  obtain ⟨closed, h, s, closes, same, released, run, requests, returned⟩ :=
    exists_closed_of_parallel settings pos unfailing begins room does
  obtain ⟨-, bytes, holds, stream⟩ :=
    exists_filled_of_run pos unfailing works header run requests returned
  refine ⟨closed, s.sink, bytes, closes, same, released, holds, stream, ?_⟩
  intro h' s' r run' parts' closes' returned'
  have nonempty : Pipeline.libraryCompressors settings n ≠ [] :=
    Pipeline.libraryCompressors_ne_nil pos
  obtain ⟨asked, unclosed⟩ := Sink.Use.requests_eq blockSize (deeds.map Deed.use)
  rw [asked] at requests
  have calm := run.mishaps_eq_nil pos (run.unfailing unfailing begins).2
  have parts := run.parts_of_requests nonempty calm unclosed requests
  have performs := run.performs nonempty calm
    (Pipeline.any_closes_dropLast requests unclosed)
  obtain ⟨⟨k, ok⟩, -⟩ := performs.result_eq_ok returned
  exact run.parts_agree nonempty run' unclosed parts parts' rfl closes'
    (run'.unfailing unfailing begins).2 returned returned' ok

end Begun

section Main

variable {κ : Type} [BlockCompressor κ] {good : ω → Prop}

/-- Letting go of a writer is closing it. Behind calls that have all succeeded it makes no difference
    whether a writer is let go of, closed or finished: what one run comes to, one comes to that parts
    with another of these requests. On a sink that never fails, if one run succeeds then every other
    does, in whatever order the parties take their steps, and leaves the same in the sink; and with
    the compressors of the library they all succeed.

    An output that has been used without a failure leaves the same if it is let go of as if it can
    be closed. With workers it can be closed, and without them if the sink does not interrupt; then
    it leaves members of all that was taken, also of what was in the buffer in front of the writer.
    With workers that is what it leaves in whatever order the parties take their steps. -/
theorem let_go_like_close (unfailing : Sink.Unfailing good) :
    (∀ {machine : Machine} {sink : ω} {options : WriterOptions} {n : Nat} {compressor : Nat → κ}
      {w : Writer κ ω} {calls : List Request} {r r' : Request},
      options.validate machine = .ok n →
      Writer.openWith machine sink options compressor = .opened w →
      (∀ r ∈ calls, r.call.closes = false) → r.call = .close → r'.call = .close →
      (∀ s, (∃ h, w.pipeline.Run h s ∧ h.Parts calls r) →
        ∃ h, w.pipeline.Run h s ∧ h.Parts calls r') ∧
      (good sink → ∀ h s h' s' k, w.pipeline.Run h s → w.pipeline.Run h' s' → h.Parts calls r →
        h'.Parts calls r' → s.Returned → s'.Returned → s.result = .ok k →
        (∃ k, s'.result = .ok k) ∧
          RecordingSink.contents s'.sink = RecordingSink.contents s.sink)) ∧
    (∀ {machine : Machine} {sink : ω} {options : WriterOptions} {w : Writer DeflateCompressor ω}
      {calls : List Request} {r r' : Request},
      Writer.open machine sink options = .opened w → good sink →
      (∀ r ∈ calls, r.call.closes = false) → r.call = .close → r'.call = .close →
      ∀ h s h' s', w.pipeline.Run h s → w.pipeline.Run h' s' → h.Parts calls r →
        h'.Parts calls r' → s.Returned → s'.Returned →
        (∃ k, s.result = .ok k) ∧ (∃ k, s'.result = .ok k) ∧
          RecordingSink.contents s'.sink = RecordingSink.contents s.sink) ∧
    (∀ {machine : Machine} {files opened : Files} {target : Target ω} {mode : OpenMode}
      {options : WriterOptions} {output used : Output ω} {deeds : List Deed},
      (∀ w, target = .stream w → good w) →
      Output.open machine files target mode options = .opened output opened →
      Sink.Does output deeds used →
      (∀ closed, used.close = (.done (), closed) →
        LeaveAlike opened closed (Sink.release used)) ∧
      (output.isThreaded = true ∨ Sink.Steady good →
        ∃ d closed filled bytes, files.openTarget mode target = .ok (d, opened) ∧
          used.close = (.done (), closed) ∧ closed.destination = Sink.release filled ∧
          RecordingSink.contents filled = RecordingSink.contents d ++ bytes ∧
          Decodes bytes (Session.payloads ⟨mode, options, deeds⟩) ∧
          ∀ writer, output = .parallel writer → ∀ h s r, writer.sink.pipeline.Run h s →
            h.Parts (Sink.Use.calls options.blockSize (deeds.map Deed.use)) r →
            r.call = .close → s.Returned → (∃ k, s.result = .ok k) ∧
              RecordingSink.contents s.sink = RecordingSink.contents filled)) := by
  refine ⟨?_, ?_, ?_⟩
  · intro machine sink options n compressor w calls r r' valid opened unclosed closes closes'
    refine ⟨?_, ?_⟩
    · intro s parts
      exact Writer.parts_as_of_openWith valid opened unclosed (closes'.trans closes.symm) parts
    · intro works h s h' s' k run run' parts parts' returned returned' ok
      exact Writer.parts_agree_of_openWith unfailing valid opened works unclosed closes closes' run
        run' parts parts' returned returned' ok
  · intro machine sink options w calls r r' opened works unclosed closes closes' h s h' s' run run'
      parts parts' returned returned'
    obtain ⟨⟨n, valid⟩, found⟩ := Writer.openWith_of_open opened
    obtain ⟨k, ok⟩ :=
      Writer.parts_succeeds_of_open unfailing opened works unclosed run parts returned
    exact ⟨⟨k, ok⟩, Writer.parts_agree_of_openWith unfailing valid found works unclosed closes
      closes' run run' parts parts' returned returned' ok⟩
  · intro machine files opened target mode options output used deeds works opens does
    have unfailing' := Destination.unfailing_reliable unfailing
    have reliable : ∀ d files', files.openTarget mode target = .ok (d, files') →
        Destination.Reliable good d :=
      fun _ _ => Destination.reliable_of_openTarget works
    obtain ⟨d, found, begins⟩ := begins_of_open unfailing' reliable opens
    have works' := reliable d opened found
    cases begins with
    | @parallel _ n d' enabled valid header =>
      obtain ⟨room, -, pos⟩ := WriterOptions.pos_of_validate valid
      obtain ⟨closed, filled, bytes, closes, same, released, holds, stream, others⟩ :=
        exists_closed_like_runs (Writer.settings options n valid) pos unfailing' works' header room
          does
      refine ⟨?_, fun _ => ⟨d, closed, filled, bytes, found, closes, released, holds, ?_, ?_⟩⟩
      · intro closed' closes'
        cases closes.symm.trans closes'
        rw [same]
        exact ⟨⟨filled, filled, released, released, rfl⟩, rfl⟩
      · rw [Session.payloads, enabled, if_neg Bool.false_ne_true]
        exact stream.decodes
      · rintro writer ⟨⟩
        exact others
    | serial disabled =>
      refine ⟨?_, ?_⟩
      · intro closed closes
        obtain ⟨e, rfl, -⟩ := does.behind passesOn_serial
        exact leaveAlike_serial closes
      · rintro (threaded | steady)
        · cases threaded
        · obtain ⟨closed, filled, bytes, closes, released, -, holds, stream⟩ :=
            exists_closed_of_serial unfailing' (Destination.steady_reliable steady) works' does
          refine ⟨d, closed, filled, bytes, found, closes, released, holds, ?_, ?_⟩
          · rw [Session.payloads, if_pos disabled]
            exact stream.decodes
          · rintro writer ⟨⟩

end Main

/-- A writer in memory that is let go of where another run finishes it, and an output in memory with
    a byte in its buffer. -/
theorem let_go_like_close_two_members :
    ∃ (w : Writer DeflateCompressor (Array UInt8))
      (h h' : History DeflateCompressor (Array UInt8))
      (s : Pipeline DeflateCompressor (Array UInt8)) (output used closed : Output (Array UInt8)),
      Writer.open .ordinary #[] {} = .opened w ∧ w.pipeline.Run h s ∧
      h.requests = [.submit [7], .flushMember, .submit [8], .finish] ∧
      w.pipeline.Run h' s ∧ h'.requests = [.submit [7], .flushMember, .submit [8], .drop] ∧
      Output.open .ordinary {} (.stream #[]) .write { blockSize := 2 } = .opened output {} ∧
      Sink.Does output [.write [7, 7, 7] 3, .flush, .write [8] 1] used ∧
      used.close = (.done (), closed) ∧ LeaveAlike {} closed (Sink.release used) := by
  have valid := WriterOptions.validate_default .ordinary
  have valid' : ({ blockSize := 2 } : WriterOptions).validate .ordinary = .ok 1 :=
    WriterOptions.validate_eq_ok_iff.2 (by decide)
  have header := writeAll_array #[] (Frame.header 6)
  have opened := Writer.open_eq_opened valid header Machine.hosts_default
  obtain ⟨h, s, run, requests, -⟩ := Pipeline.exists_run_program Nat.one_pos
    (Writer.settings {} 1 valid) ((#[] : Array UInt8) ++ Frame.header 6) [[[7]]] [[8]]
  have parts : h.Parts [.submit [7], .flushMember, .submit [8]] .finish :=
    run.parts_of_requests (Pipeline.libraryCompressors_ne_nil Nat.one_pos)
      (run.mishaps_eq_nil Nat.one_pos (Pipeline.sinkWorks_array h)) (by decide) requests
  have found : Writer.openWith .ordinary (#[] : Array UInt8) {}
      (fun _ => DeflateCompressor.mk 6 (compressBufferSize ({} : WriterOptions).blockSize)) =
      .opened _ := Writer.openWith_eq_opened valid header Machine.hosts_default
  obtain ⟨h', run', parts'⟩ := ((let_go_like_close Sink.unfailing_array).1 valid found (by decide)
    (rfl : Request.finish.call = .close) (rfl : Request.drop.call = .close)).1 s ⟨h, run, parts⟩
  have unfailing := Destination.unfailing_onStream Sink.unfailing_array
  obtain ⟨d, header', begins⟩ := unfailing.writeAll (.intro (w := #[]) trivial) (Frame.header 6)
  have opens : Output.open .ordinary {} (.stream (#[] : Array UInt8)) .write { blockSize := 2 } =
      .opened _ ({} : Files) := open_eq_parallel rfl valid' rfl header' Machine.hosts_default
  obtain ⟨used, does⟩ := exists_does_of_parallel
    (Writer.settings { blockSize := 2 } 1 valid') Nat.one_pos unfailing begins (.fixed 1)
    Nat.two_pos [.writeAll [7, 7, 7], .flush, .writeAll [8]]
  obtain ⟨same, succeeds⟩ := (let_go_like_close (κ := DeflateCompressor) Sink.unfailing_array).2.2
    (fun _ _ => trivial) opens does
  obtain ⟨-, closed, -, -, -, closes, -⟩ := succeeds (.inl rfl)
  exact ⟨_, h, h', s, _, used, closed, opened, run, requests, run', parts'.requests_eq, opens, does,
    closes, same closed closes⟩

/-- Where it is not: without workers, on a stream that never fails but interrupts the third request
    to write. Closing an output to which nothing has been written leaves the whole member there,
    letting go of it leaves the member without its trailer. -/
theorem let_go_unlike_close :
    Sink.Unfailing ScriptedSink.Calm ∧ ({ interrupt := 3 } : ScriptedSink).Calm ∧
    ∃ output, Output.open .ordinary {} (.stream ({ interrupt := 3 } : ScriptedSink)) .write
        { threads := .fixed 0 } = .opened output {} ∧
      Sink.Does output [] output ∧
      RecordingSink.contents output.close.2.destination =
        RecordingSink.contents (Sink.release output).destination ++ Frame.trailer 0 0 ∧
      RecordingSink.contents (Sink.release output).destination ≠
        RecordingSink.contents output.close.2.destination := by
  let sink (collected : Array UInt8) (writes : Nat) : Destination ScriptedSink :=
    .stream { collected := collected, writes := writes, interrupt := 3 }
  let header := (#[] : Array UInt8) ++ Frame.wholeHeader defaultLevel
  let body := header ++ Frame.emptyFinalBlock
  have calm (collected : Array UInt8) (writes : Nat) :
      ({ collected := collected, writes := writes, interrupt := 3 } : ScriptedSink).Calm :=
    ⟨nofun, nofun, rfl, rfl, rfl, rfl⟩
  have onStream (w : ScriptedSink) (bytes : Bytes) : Sink.write (Destination.stream w) bytes =
      ((Sink.write w bytes).1, .stream (Sink.write w bytes).2) := rfl
  have pushed {collected : Array UInt8} {writes : Nat} {bytes : Bytes} (some : bytes ≠ [])
      (now : (writes + 1) % 3 ≠ 0) : Sink.push (sink collected writes) bytes =
        (.done, [], sink (collected ++ bytes) (writes + 1)) := by
    refine Encoder.push_of_wrote some ?_
    rw [onStream, (calm collected writes).write_of_not_interrupts fun interrupts => now interrupts.2]
    have taken : ({ collected := collected, writes := writes, interrupt := 3 } : ScriptedSink).taken
      bytes = bytes.length := rfl
    rw [taken, List.take_length]
  have tailed : Sink.push (sink body 2) (Frame.trailer 0 0) =
      (.interrupted interruption, Frame.trailer 0 0, sink body 3) := by
    refine Encoder.push_of_interrupted (by decide) ?_
    rw [onStream, (calm body 2).write_of_interrupts ⟨by decide, by decide⟩]
  have headed : Sink.push (sink #[] 0) (Frame.wholeHeader defaultLevel) = _ :=
    pushed (by decide) (by decide)
  have bodied : Sink.push (sink header 1) Frame.emptyFinalBlock = _ :=
    pushed (by decide) (by decide)
  have again : Sink.push (sink body 3) (Frame.trailer 0 0) = _ := pushed (by decide) (by decide)
  obtain ⟨letGo, -, closed⟩ := Encoder.new_interrupted headed bodied tailed again
  let encoder := Encoder.new (sink #[] 0) defaultLevel
  have left : RecordingSink.contents (Sink.release (serial encoder)).destination = body.toList :=
    congrArg RecordingSink.contents letGo
  have whole : RecordingSink.contents (serial encoder).close.2.destination =
      body.toList ++ Frame.trailer 0 0 := by
    have same : (serial encoder).close.2.destination = encoder.close.2.sink := by
      rw [Output.close]
      split <;> next ended => rw [ended]; rfl
    rw [same, closed]
    exact Array.toList_appendList
  refine ⟨ScriptedSink.unfailing, calm #[] 0, _, open_eq_serial rfl rfl rfl rfl, .nil, ?_, ?_⟩
  · exact whole.trans (congrArg (· ++ Frame.trailer 0 0) left.symm)
  · intro same
    have lengths := congrArg List.length (left.symm.trans (same.trans whole))
    rw [List.length_append, Frame.length_trailer] at lengths
    exact absurd lengths (by simp [Frame.trailerLength])

end Output

end ParallelGzip
