import ParallelGzip.Proofs.Pipeline.Answers
import ParallelGzip.Proofs.Stitched

set_option autoImplicit false

/-! # Round trip: what a writer writes can be read again

A writer that is asked to submit pieces of data, to end members between them, and to finish, leaves
members in its sink whose payloads are what was submitted between the ends. `Writer.round_trip` says
so for every order of steps, and for `compressThreaded`, whose calls settle by themselves. -/

namespace ParallelGzip

/-! ## What is asked -/

namespace Request

/-- The requests that make members of these pieces of data, and leave the last one open. -/
def calls (members : List (List Bytes)) (last : List Bytes) : List Request :=
  (members.flatMap fun pieces => pieces.map submit ++ [flushMember]) ++ last.map submit

/-- The calls, and the request to finish behind them. -/
def program (members : List (List Bytes)) (last : List Bytes) : List Request :=
  calls members last ++ [finish]

theorem closes_calls (members : List (List Bytes)) (last : List Bytes) :
    ((calls members last).any fun r => r.call.closes) = false := by
  rw [List.any_eq_false]
  intro r hr
  simp only [calls, List.mem_append, List.mem_flatMap, List.mem_map, List.mem_singleton] at hr
  rcases hr with ⟨pieces, -, ⟨data, -, rfl⟩ | rfl⟩ | ⟨data, -, rfl⟩ <;>
    exact Bool.false_ne_true

end Request

namespace Payloads

/-- Pieces of data that are submitted one behind the other. -/
theorem askAll_submits (p : Payloads) (pieces : List Bytes) :
    p.askAll (pieces.map .submit) = p.write pieces.flatten := by
  induction pieces generalizing p with
  | nil => exact p.write_nil.symm
  | cons data pieces ih =>
    rw [List.flatten_cons, ← write_write]
    exact ih (p.write data)

/-- Members whose ends are asked for. -/
theorem askAll_members (whole : List Bytes) (members : List (List Bytes)) :
    (Payloads.mk whole []).askAll
        (members.flatMap fun pieces => pieces.map .submit ++ [.flushMember]) =
      ⟨whole ++ members.map List.flatten, []⟩ := by
  induction members generalizing whole with
  | nil => exact congrArg (Payloads.mk · []) (List.append_nil whole).symm
  | cons pieces members ih =>
    rw [List.flatMap_cons, askAll_append, askAll_append, askAll_submits]
    show askAll (cut _) _ = _
    rw [cut, write, List.nil_append, ih, List.append_assoc]
    rfl

/-- A program asks for the pieces of each member, one behind the other. -/
theorem asked_program (members : List (List Bytes)) (last : List Bytes) :
    asked (Request.program members last) =
      ⟨members.map List.flatten ++ [last.flatten], []⟩ := by
  rw [Request.program, asked_concat, Request.calls, asked, askAll_append, askAll_submits, empty,
    askAll_members]
  rfl

end Payloads

/-! ## What is written -/

namespace Pipeline

variable {ω : Type} [Sink ω] {settings : Settings} {n : Nat} {sink : ω}
  {h : History DeflateCompressor ω} {s : Pipeline DeflateCompressor ω}
  {members : List (List Bytes)} {last : List Bytes}

/-- Requests that have been carried out, and of which the last closes the writer, have left members
    with what they asked for. -/
theorem Run.isStream_asked [RecordingSink ω] {base : Bytes} (pos : 0 < n)
    (run : Run (Pipeline.new settings (libraryCompressors settings n) sink) h s)
    (header : RecordingSink.contents sink = base ++ Frame.header settings.level)
    (works : h.SinkWorks) (program : (h.requests.dropLast.any fun r => r.call.closes) = false)
    (closes : (h.requests.any fun r => r.call.closes) = true) (returned : s.Returned) :
    (∃ m, s.result = .ok m) ∧ s.owner.closed = true ∧
      ∃ data, RecordingSink.contents s.sink = base ++ data ∧
        IsStream data (Payloads.asked h.requests).whole := by
  have performs := run.performs_of_sinkWorks pos works program
  obtain ⟨result, closed⟩ := performs.result_eq_ok returned
  rw [closes] at closed
  obtain ⟨payloads, ended, composed, owes⟩ := performs.owes
  obtain ⟨outcome, phase⟩ := returned
  rw [Owner.Owes, phase, closes] at owes
  obtain ⟨asked, rfl, -⟩ := owes
  -- a closed writer has seen all its entries done
  have done : h.entries.length ≤ s.sequencer.index := by
    rw [run.ordered.entries_length, ← run.linked.sequenced]
    exact performs.done closed
  obtain ⟨made, count, hmade, hcontents⟩ :=
    run.contents_eq_of_done (libraryCompressors_ne_nil pos) done
  have hentries : made = h.entries.map (Entry.render settings.level) := by
    refine List.ext_getElem? ?_
    intro p
    by_cases hp : p < made.length
    · rw [← hmade p hp, libraryCompressors, DeflateCompressor.rendering_eq pos run.fits.2]
    · rw [List.getElem?_eq_none (by omega), List.getElem?_eq_none (by rw [List.length_map]; omega)]
  refine ⟨result, closed, _, ?_, asked ▸ composed.stitched settings.level⟩
  rw [hcontents, header, hentries, List.append_assoc]

/-- A program that has been carried out has left members with what it asked for. -/
theorem Run.isStream [RecordingSink ω] {base : Bytes} (pos : 0 < n)
    (run : Run (Pipeline.new settings (libraryCompressors settings n) sink) h s)
    (header : RecordingSink.contents sink = base ++ Frame.header settings.level)
    (works : h.SinkWorks) (requests : h.requests = Request.program members last)
    (returned : s.Returned) :
    (∃ m, s.result = .ok m) ∧ s.owner.closed = true ∧
      ∃ data, RecordingSink.contents s.sink = base ++ data ∧
        IsStream data (members.map List.flatten ++ [last.flatten]) := by
  have program : (h.requests.dropLast.any fun r => r.call.closes) = false := by
    rw [requests, Request.program, List.dropLast_concat]
    exact Request.closes_calls members last
  have closes : (h.requests.any fun r => r.call.closes) = true := by
    rw [requests, Request.program, List.any_append]
    exact Bool.or_true _
  have whole := run.isStream_asked pos header works program closes returned
  rwa [requests, Payloads.asked_program] at whole

/-- A sink in memory works. -/
theorem sinkMishap?_array {κ : Type} (s : Pipeline κ (Array UInt8)) : s.sinkMishap? = none := by
  unfold sinkMishap?
  split
  · next rest _ _ =>
    by_cases empty : rest = []
    · rw [if_pos empty]
    · obtain ⟨k, hk⟩ := Nat.exists_eq_succ_of_ne_zero (mt List.length_eq_zero_iff.1 empty)
      simp only [empty, if_false, Sink.write, hk]
  · rfl
  · rfl

theorem sinkWorks_array {κ : Type} [BlockCompressor κ] (h : History κ (Array UInt8)) :
    h.SinkWorks := by
  intro mishap hmishap
  obtain ⟨m, -, mishap?⟩ := List.mem_filterMap.1 hmishap
  unfold Moment.mishap? at mishap?
  split at mishap?
  · obtain ⟨lane, -, mishap?⟩ := Option.bind_eq_some_iff.1 mishap?
    exact Lane.number?_of_mishap? mishap?
  · rw [sinkMishap?_array] at mishap?
    cases mishap?
  · cases mishap?

/-- A call of a writer on a sink that works answers as it is to, and closes the writer if it is
    to. -/
theorem Run.call (pos : 0 < n)
    (run : Run (Pipeline.new settings (libraryCompressors settings n) sink) h s)
    (works : ∀ h s, Run (Pipeline.new settings (libraryCompressors settings n) sink) h s →
      h.SinkWorks)
    (returned : s.Returned) (closing : (h.requests.any fun r => r.call.closes) = false)
    (r : Request) :
    ∃ h' s', s.call r.call = (.ok r.call.answer, s') ∧ Run s h' s' ∧ h'.requests = [r] ∧
      s'.Returned ∧ s'.owner.closed = r.call.closes := by
  have nonempty : libraryCompressors settings n ≠ [] := libraryCompressors_ne_nil pos
  -- only a request to close closes the writer, as nothing goes wrong
  have opened : s.owner.closed = false := by
    have performs := run.performs_of_sinkWorks pos (works _ _ run) ?_
    · rw [(performs.result_eq_ok returned).2, closing]
    · rw [List.any_eq_false] at closing ⊢
      intro r hr
      exact closing r (List.dropLast_subset _ hr)
  obtain ⟨h', run', requests, stuck⟩ := exists_run_call returned opened r
  have whole := run.append run'
  have returned' := stuck.returned nonempty whole.ordered whole.linked
  have asked : History.requests (h ++ h') = h.requests ++ [r] := by
    rw [History.requests_append, requests]
  have program : ((History.requests (h ++ h')).dropLast.any fun r => r.call.closes) = false := by
    rw [asked, List.dropLast_concat]
    exact closing
  have calm := whole.mishaps_eq_nil pos (works _ _ whole)
  have answers := ((whole.answers nonempty calm program).of_returned returned').2 r (by
    rw [asked, List.getLast?_concat])
  have closed := ((whole.performs nonempty calm program).result_eq_ok returned').2
  refine ⟨h', _, Prod.ext answers rfl, run', requests, returned', ?_⟩
  rw [closed, asked, List.any_append, closing]
  simp

/-- Whatever is asked for, as long as it is not to close, can be carried out. -/
theorem exists_run_requests (pos : 0 < n) (settings : Settings) (sink : Array UInt8)
    (requests : List Request) (unclosed : (requests.any fun r => r.call.closes) = false) :
    ∃ h s, Run (Pipeline.new settings (libraryCompressors settings n) sink) h s ∧
      h.requests = requests ∧ s.Returned ∧ s.owner.closed = false := by
  induction requests using List.reverseRecOn with
  | nil => exact ⟨[], _, .start, rfl, ⟨_, rfl⟩, rfl⟩
  | append_singleton requests r ih =>
    rw [List.any_append, Bool.or_eq_false_iff] at unclosed
    obtain ⟨h, s, run, rfl, returned, -⟩ := ih unclosed.1
    obtain ⟨h', s', -, run', requests', returned', closed⟩ :=
      run.call pos (fun h _ _ => sinkWorks_array h) returned unclosed.1 r
    refine ⟨_, s', run.append run', by rw [History.requests_append, requests'], returned', ?_⟩
    rw [closed]
    simpa using unclosed.2

/-- Every program can be carried out. -/
theorem exists_run_program (pos : 0 < n) (settings : Settings) (sink : Array UInt8)
    (members : List (List Bytes)) (last : List Bytes) :
    ∃ h s, Run (Pipeline.new settings (libraryCompressors settings n) sink) h s ∧
      h.requests = Request.program members last ∧ s.Returned := by
  obtain ⟨h, s, run, requests, returned, -⟩ :=
    exists_run_requests pos settings sink _ (Request.closes_calls members last)
  obtain ⟨h', s', -, run', requests', returned', -⟩ :=
    run.call pos (fun h _ _ => sinkWorks_array h) returned
      (requests ▸ Request.closes_calls members last) .finish
  exact ⟨_, s', run.append run', by rw [History.requests_append, requests, requests']; rfl,
    returned'⟩

end Pipeline

namespace Writer

variable {ω : Type} [Sink ω] {machine : Machine} {options : WriterOptions} {n : Nat}

/-- There is room for the compressed form of a block of any size that passes the checks. -/
theorem compressBufferSize?_eq (valid : options.validate machine = .ok n) :
    compressBufferSize? options.blockSize = some (compressBufferSize options.blockSize) :=
  compressBufferSize?_of_le (WriterOptions.validate_eq_ok_iff.1 valid).2.2.1

/-- Opening with the compressors of the library. -/
theorem open_eq_opened {sink sink' : ω} (valid : options.validate machine = .ok n)
    (header : Sink.writeAll sink (Frame.header options.level) = (.done, sink'))
    (hosts : machine.Hosts n options.queueSize) :
    Writer.open machine sink options = .opened ⟨.new (settings options n valid)
      (Pipeline.libraryCompressors (settings options n valid) n) sink', options.threads⟩ := by
  rw [Writer.open, compressBufferSize?_eq valid]
  exact openWith_eq_opened valid header hosts

/-- A writer of the library is one that has been opened with the library's compressors. -/
theorem openWith_of_open {sink : ω} {w : Writer DeflateCompressor ω}
    (opened : Writer.open machine sink options = .opened w) :
    (∃ n, options.validate machine = .ok n) ∧
      openWith machine sink options
        (fun _ => ⟨options.level, compressBufferSize options.blockSize⟩) = .opened w := by
  unfold Writer.open at opened
  split at opened
  · cases opened
  · next capacity room =>
    obtain ⟨n, valid⟩ := exists_validate_of_openWith opened
    rw [compressBufferSize?_eq valid] at room
    cases room
    exact ⟨⟨n, valid⟩, opened⟩

/-- It runs a pipeline with them. -/
theorem pipeline_of_open {sink : ω} {w : Writer DeflateCompressor ω}
    (opened : Writer.open machine sink options = .opened w) :
    ∃ n, ∃ valid : options.validate machine = .ok n, ∃ sink',
      Sink.writeAll sink (Frame.header options.level) = (.done, sink') ∧
      w.pipeline = .new (settings options n valid)
        (Pipeline.libraryCompressors (settings options n valid) n) sink' := by
  obtain ⟨⟨n, valid⟩, opened⟩ := openWith_of_open opened
  obtain ⟨sink', header, start⟩ := pipeline_of_openWith valid opened
  exact ⟨n, valid, sink', header, start⟩

/-- Opening panics if there cannot be room for the lanes or the queues. -/
theorem open_eq_panicked {sink sink' : ω} (valid : options.validate machine = .ok n)
    (header : Sink.writeAll sink (Frame.header options.level) = (.done, sink'))
    (full : Pipeline.fits n options.queueSize = false) :
    Writer.open machine sink options = .panicked sink' := by
  rw [Writer.open, compressBufferSize?_eq valid]
  exact openWith_eq_panicked valid header full

/-- Opening fails if the machine does not start a thread. -/
theorem open_eq_failed {sink sink' : ω} {failure : Error}
    (valid : options.validate machine = .ok n)
    (header : Sink.writeAll sink (Frame.header options.level) = (.done, sink'))
    (fits : Pipeline.fits n options.queueSize = true)
    (refused : machine.spawnFailure? n = some failure) :
    Writer.open machine sink options = .failed failure sink' := by
  rw [Writer.open, compressBufferSize?_eq valid]
  exact openWith_eq_failed valid header fits refused

section Calls

variable {κ : Type} [BlockCompressor κ] {w : Writer κ ω} {s : Pipeline κ ω} {m : Nat}

theorem submit_of_call {data : Bytes} (returns : w.pipeline.call (.submit data) = (.ok m, s))
    (opened : s.owner.closed = false) : w.submit data = (.ok m, { w with pipeline := s }) := by
  simp only [submit, callAndRelease, call, returns, isClosed, opened, Bool.false_and,
    Bool.false_eq_true, if_false]

theorem flushMember_of_call (returns : w.pipeline.call .flush = (.ok m, s))
    (opened : s.owner.closed = false) : w.flushMember = (.ok m, { w with pipeline := s }) := by
  simp only [flushMember, callAndRelease, call, returns, isClosed, opened, Bool.false_and,
    Bool.false_eq_true, if_false]

theorem close_of_call (opened : w.pipeline.owner.closed = false)
    (returns : w.pipeline.call .close = (.ok m, s)) (closed : s.owner.closed = true) :
    w.close = (.ok m, { w with pipeline := { s with sink := Sink.release s.sink } }) := by
  simp only [close, callAndRelease, call, returns, isClosed, opened, closed, Bool.not_false,
    Bool.and_self, if_true, release]

theorem finish_of_call (opened : w.pipeline.owner.closed = false)
    (returns : w.pipeline.call .close = (.ok m, s)) :
    w.finish = (.ok s.sink, { w with pipeline := s }) := by
  simp only [finish, call, returns, isClosed, opened, Bool.false_eq_true, if_false, Writer.sink]

end Calls

/-- Compressing in memory leaves one member. -/
theorem compressThreaded_eq_done (valid : options.validate machine = .ok n)
    (hosts : machine.Hosts n options.queueSize) (data : Bytes) :
    ∃ bytes, compressThreaded machine data options = .done bytes ∧ IsStream bytes [data] := by
  have pos := (WriterOptions.pos_of_validate valid).2.2
  have opened := open_eq_opened valid (writeAll_array #[] (Frame.header options.level)) hosts
  have begun : (Pipeline.new (settings options n valid)
    (Pipeline.libraryCompressors (settings options n valid) n)
    ((#[] : Array UInt8) ++ Frame.header options.level)).Run [] _ := .start
  obtain ⟨h₁, s₁, submits, run₁, requests₁, returned₁, opened₁⟩ :=
    begun.call pos (fun h _ _ => Pipeline.sinkWorks_array h) ⟨_, rfl⟩ rfl (.submit data)
  obtain ⟨h₂, s₂, finishes, run₂, requests₂, returned₂, closed₂⟩ :=
    (begun.append run₁).call pos (fun h _ _ => Pipeline.sinkWorks_array h) returned₁
      (by rw [List.nil_append, requests₁]; rfl) .finish
  have requests : History.requests (h₁ ++ h₂) = Request.program [] [data] := by
    rw [History.requests_append, requests₁, requests₂]
    rfl
  obtain ⟨-, -, bytes, hcontents, isStream⟩ := (run₁.append run₂).isStream pos
    (List.nil_append _).symm (Pipeline.sinkWorks_array _) requests returned₂
  refine ⟨bytes, ?_, by simpa using isStream⟩
  rw [compressThreaded, opened]
  dsimp only
  rw [submit_of_call submits opened₁]
  dsimp only
  rw [finish_of_call opened₁ finishes]
  exact congrArg Attempt.done hcontents

/-- What is written decodes to what was submitted. A writer that is asked to submit pieces of data
    and to end members between them, and then to finish, on a sink that works and a machine that can
    run it, finishes without an error in whatever order the parties take their steps; behind what the
    sink held before there are then as many members as were ended, and one more, and the payload of
    each is what was submitted between the ends. So whatever is compressed in memory can be
    decompressed again. -/
theorem round_trip [RecordingSink ω] {sink sink' : ω} (valid : options.validate machine = .ok n)
    (hosts : machine.Hosts n options.queueSize)
    (header : Sink.writeAll sink (Frame.header options.level) = (.done, sink')) :
    (∃ w, Writer.open machine sink options = .opened w ∧
      ∀ (members : List (List Bytes)) (last : List Bytes) (h : History DeflateCompressor ω)
        (s : Pipeline DeflateCompressor ω), w.pipeline.Run h s → h.SinkWorks →
        h.requests = Request.program members last →
          s.Returns ∧ (s.Returned → (∃ m, s.result = .ok m) ∧ s.owner.closed = true ∧
            ∃ data, RecordingSink.contents s.sink = RecordingSink.contents sink ++ data ∧
              Decodes data (members.map List.flatten ++ [last.flatten]))) ∧
      ∀ data, ∃ bytes, compressThreaded machine data options = .done bytes ∧
        decompress bytes = .ok data := by
  have pos := (WriterOptions.pos_of_validate valid).2.2
  constructor
  · refine ⟨_, open_eq_opened valid header hosts, ?_⟩
    intro members last h s run works requests
    refine ⟨run.returns (Pipeline.libraryCompressors_ne_nil pos), ?_⟩
    intro returned
    obtain ⟨result, closed, data, hcontents, isStream⟩ := run.isStream pos
      (RecordingSink.contents_of_writeAll_done header) works requests returned
    exact ⟨result, closed, data, hcontents, isStream.decodes⟩
  · intro data
    obtain ⟨bytes, done, isStream⟩ := compressThreaded_eq_done valid hosts data
    refine ⟨bytes, done, ?_⟩
    rw [isStream.decodes.whole]
    simp

/-- A writer in memory with the options that are the default is asked for two members. -/
theorem round_trip_two_members :
    ∃ (w : Writer DeflateCompressor (Array UInt8)) (h : History DeflateCompressor (Array UInt8))
      (s : Pipeline DeflateCompressor (Array UInt8)),
      Writer.open .ordinary #[] {} = .opened w ∧ w.pipeline.Run h s ∧
      h.requests = Request.program [[[7], [], [7, 7]]] [[8]] ∧ s.Returned ∧
      Decodes s.sink.toList [[7, 7, 7], [8]] := by
  have valid := WriterOptions.validate_default .ordinary
  have header := writeAll_array #[] (Frame.header 6)
  obtain ⟨h, s, run, requests, returned⟩ :=
    Pipeline.exists_run_program (Nat.one_pos) (settings {} 1 valid) _ [[[7], [], [7, 7]]] [[8]]
  obtain ⟨⟨w, opened, all⟩, -⟩ := round_trip valid Machine.hosts_default header
  have found := open_eq_opened valid header Machine.hosts_default
  rw [opened, Opening.opened.injEq] at found
  subst found
  have works := Pipeline.sinkWorks_array h
  obtain ⟨-, -, data, hcontents, decodes⟩ := (all _ _ h s run works requests).2 returned
  obtain rfl : s.sink.toList = data := hcontents
  exact ⟨_, h, s, opened, run, requests, returned, decodes⟩

/-- Nothing comes of options that pass the checks if the queues or the lanes are more than can be
    asked for, or the machine starts no thread: the call panics or fails. -/
theorem compressThreaded_unstartable :
    (({ queueSize := 0x4000000000000000 } : WriterOptions).validate .ordinary = .ok 1 ∧
      ¬∃ bytes, compressThreaded .ordinary [97] { queueSize := 0x4000000000000000 } = .done bytes) ∧
    (({ threads := .fixed 0x1000000000000000 } : WriterOptions).validate .ordinary =
        .ok 0x1000000000000000 ∧
      ¬∃ bytes, compressThreaded .ordinary [97] { threads := .fixed 0x1000000000000000 } =
        .done bytes) ∧
    ({} : WriterOptions).validate .exhausted = .ok 1 ∧
      compressThreaded .exhausted [97] {} = .failed (.thread
        "failed to spawn worker: Resource temporarily unavailable (os error 11)") := by
  have queues : ({ queueSize := 0x4000000000000000 } : WriterOptions).validate .ordinary = .ok 1 :=
    WriterOptions.validate_workers .ordinary (by decide) (by decide)
  have lanes : ({ threads := .fixed 0x1000000000000000 } : WriterOptions).validate .ordinary =
      .ok 0x1000000000000000 := WriterOptions.validate_workers .ordinary (by decide) (by decide)
  have threads := WriterOptions.validate_default .exhausted
  have header := writeAll_array #[] (Frame.header 6)
  refine ⟨⟨queues, ?_⟩, ⟨lanes, ?_⟩, threads, ?_⟩
  · rintro ⟨bytes, done⟩
    rw [compressThreaded, open_eq_panicked queues header (by decide)] at done
    cases done
  · rintro ⟨bytes, done⟩
    rw [compressThreaded, open_eq_panicked lanes header (by decide)] at done
    cases done
  · rw [compressThreaded, open_eq_failed threads header (by decide)
      (Machine.spawnFailure?_exhausted Nat.one_pos)]

end Writer

end ParallelGzip
