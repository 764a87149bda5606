import ParallelGzip.Compressor.Scripted
import ParallelGzip.Proofs.Pipeline.Barrier
import ParallelGzip.Proofs.Pipeline.Closed
import ParallelGzip.Proofs.RoundTrip

set_option autoImplicit false

/-! # Whole members: what a call that ends a member leaves in the sink

When a call that ends a member has returned without an error, the sink holds whole members with all
that has been submitted, one for each end asked for, and behind them at most the header of the next
member; it has been flushed since the last byte. `Writer.members_whole` says so for every order of
steps, with compressors that keep what `BlockCompressor.Honours` says. -/

namespace ParallelGzip

open Deflate (Inflater)

variable {κ ω : Type}

/-! ## Compressors that keep their word -/

namespace BlockCompressor

variable [BlockCompressor κ]

/-- What becomes of a compressor that is given blocks with their dictionaries. -/
def feed (c : κ) (jobs : List (Bytes × Bytes)) : κ :=
  jobs.foldl (fun c (raw, dictionary) => (compress c raw dictionary).2) c

/-- Whatever a compressor has been given before, the blocks that it makes are faithful. It may
    fail. -/
def Honours (c : κ) : Prop :=
  ∀ jobs raw dictionary compressed, (compress (feed c jobs) raw dictionary).1 = .block compressed →
    compressed.Faithful raw dictionary

theorem Honours.next {c : κ} (honours : Honours c) (raw dictionary : Bytes) :
    Honours (compress c raw dictionary).2 := fun jobs => honours ((raw, dictionary) :: jobs)

/-- What becomes of an entry stands for it. -/
theorem Honours.standsFor {c after : κ} {entry : Entry} {rendered : Rendered}
    (honours : Honours c) (made : compressEntry c entry = some (rendered, after)) :
    rendered.StandsFor entry ∧ Honours after := by
  cases entry with
  | memberEnd next =>
    cases made
    exact ⟨rfl, honours⟩
  | block number data dictionary =>
    have now := honours [] data dictionary
    have later := honours.next data dictionary
    rw [compressEntry] at made
    split at made
    · next compressed after' result =>
      cases made
      have result' : compress (feed c []) data dictionary = (.block compressed, after) := result
      rw [result'] at now
      rw [result] at later
      exact ⟨now compressed rfl, later⟩
    · cases made

end BlockCompressor

open BlockCompressor (Honours)

/-- The library's compressors keep their word. -/
theorem DeflateCompressor.honours (c : DeflateCompressor) : Honours c := by
  intro jobs raw dictionary compressed made
  generalize BlockCompressor.feed c jobs = c at made
  simp only [BlockCompressor.compress, compress] at made
  split at made
  · next block found =>
    cases made
    split at found
    · cases found
    · cases found
      refine ⟨rfl, rfl, ?_⟩
      intro _ history behind
      obtain ⟨base, ends⟩ := (windowOf_isSuffix dictionary).trans behind
      exact Deflate.inflates_encode _ raw _ ends.symm
  · cases made

namespace ScriptedCompressor

open BlockCompressor (feed)

theorem codec_feed (c : ScriptedCompressor) (jobs : List (Bytes × Bytes)) :
    (feed c jobs).codec = c.codec := by
  induction jobs generalizing c with
  | nil => rfl
  | cons job jobs ih =>
    refine (ih _).trans ?_
    simp only [BlockCompressor.compress]
    split
    · rfl
    · split
      · rfl
      · split
        · rfl
        · split <;> rfl

/-- A compressor that stores blocks keeps its word. -/
theorem honours_of_stored {c : ScriptedCompressor} (stored : c.codec = .stored) : Honours c := by
  intro jobs raw dictionary compressed made
  have codec := codec_feed c jobs
  generalize feed c jobs = c' at made codec
  simp only [BlockCompressor.compress, render, codec, stored] at made
  split at made
  · cases made
  · split at made
    · cases made
    · split at made
      · cases made
      · cases made
        exact ⟨rfl, rfl, fun _ history _ => Deflate.inflates_store raw history⟩

end ScriptedCompressor

/-! ## What requests ask for -/

namespace Request

/-- Whether a request ends a member. -/
def endsMember : Request → Bool
  | submit _ => false
  | flushMember | close | finish | drop => true

/-- The data that a request submits. -/
def submitted : Request → Bytes
  | submit data => data
  | flushMember | close | finish | drop => []

/-- What comes behind the end of the member: the header of the next one, if there is one. -/
def opens (level : Nat) : Request → Bytes
  | flushMember => Frame.header level
  | submit _ | close | finish | drop => []

theorem ne_submit {r : Request} (ends : r.endsMember = true) (data : Bytes) :
    r.call ≠ .submit data := by
  cases r with
  | submit _ => cases ends
  | flushMember | close | finish | drop => exact nofun

end Request

namespace Payloads

theorem askAll_cons (p : Payloads) (r : Request) (requests : List Request) :
    p.askAll (r :: requests) = (p.ask r.call).askAll requests := rfl

/-- Nothing that is submitted is lost, and nothing else is there. -/
theorem flatten_askAll (p : Payloads) (requests : List Request) :
    (p.askAll requests).whole.flatten ++ (p.askAll requests).current =
      p.whole.flatten ++ p.current ++ requests.flatMap Request.submitted := by
  induction requests generalizing p with
  | nil => exact (List.append_nil _).symm
  | cons r requests ih =>
    rw [askAll_cons, ih, List.flatMap_cons]
    cases r <;> simp [ask, write, cut, Request.call, Request.submitted]

/-- There is one member for each end that is asked for. -/
theorem length_askAll (p : Payloads) (requests : List Request) :
    (p.askAll requests).whole.length = p.whole.length + requests.countP Request.endsMember := by
  induction requests generalizing p with
  | nil => rfl
  | cons r requests ih =>
    rw [askAll_cons, ih, List.countP_cons]
    cases r <;> simp [ask, write, cut, Request.call, Request.endsMember] <;> omega

end Payloads

/-- Entries whose last one ends a member. -/
theorem Composed.of_getLast? {entries : List Entry} {p : Payloads} {previous : Bytes}
    {ended : Bool} {next : Option Nat} (composed : Composed entries p previous ended)
    (last : entries.getLast? = some (.memberEnd next)) :
    ended = next.isNone ∧ ∃ before q previous', entries = before ++ [.memberEnd next] ∧
      Composed before q previous' false ∧ p = q.cut := by
  cases composed with
  | nil => cases last
  | block number data before => simp at last
  | @memberEnd before q previous' next' composed =>
    rw [List.getLast?_concat, Option.some.injEq, Entry.memberEnd.injEq] at last
    subst last
    exact ⟨rfl, before, q, previous', rfl, composed, rfl⟩

/-- Behind whole members there is the header of the next one, if there is to be one. -/
theorem Composed.exists_isStream {entries : List Entry} {made : List Rendered} {p : Payloads}
    {previous : Bytes} {ended : Bool} {next : Option Nat}
    (composed : Composed entries p previous ended)
    (last : entries.getLast? = some (.memberEnd next))
    (faithful : List.Forall₂ Rendered.StandsFor made entries) (level : Nat) :
    ended = next.isNone ∧ p.current = [] ∧ ∃ stream, IsStream stream p.whole ∧
      Frame.header level ++ Tally.zero.stitch made = stream ++ next.elim [] Frame.header := by
  obtain ⟨rfl, before, q, previous', rfl, inside, rfl⟩ := composed.of_getLast? last
  refine ⟨rfl, rfl, ?_⟩
  obtain ⟨made, last, rfl, earlier, now⟩ := forall₂_concat faithful
  obtain ⟨stream, isStream, whole⟩ := (inside.stitched_of_standsFor earlier level).cut next
  refine ⟨stream, isStream, ?_⟩
  cases last with
  | block _ compressed => exact now.elim
  | memberEnd next' =>
    obtain rfl : next' = next := now
    rw [Tally.stitch_append_singleton, ← List.append_assoc]
    exact whole

namespace Pipeline

variable [BlockCompressor κ] [Sink ω] {settings : Settings} {compressors : List κ} {sink : ω}
  {s : Pipeline κ ω} {h₁ h₂ h₃ : History κ ω} {call m : Moment κ ω} {r : Request} {n : Nat}

/-- A call that returns later than it has been asked for has been asked of an open writer. -/
theorem Run.not_asked_of_outcome?
    (run : Run (Pipeline.new settings compressors sink) (h₁ ++ call :: h₂ ++ m :: h₃) s)
    (request? : call.request? = some r) (alone : History.requests (h₂ ++ [m]) = []) :
    (h₁.requests.any fun r => r.call.closes) = false := by
  have cut : h₁ ++ call :: h₂ ++ m :: h₃ = h₁ ++ call :: (h₂ ++ m :: h₃) := by simp
  rw [cut] at run
  obtain ⟨upTo, through, behind⟩ := run.cut
  rcases run.act_of_mem (List.mem_append_right _ List.mem_cons_self) with
    ⟨party, act, -⟩ | ⟨r', act, returned, after⟩
  · rw [Moment.request?, act] at request?
    cases request?
  · refine upTo.not_asked returned ?_
    cases closed : call.before.owner.closed with
    | false => rfl
    | true =>
      -- a closed writer answers at once, and then nothing happens but requests
      have settled : call.after.Settled := by
        rw [after, request_of_closed closed]
        exact ⟨⟨_, rfl⟩, closed⟩
      obtain ⟨r'', act', -⟩ := (behind.of_settled settled through.linked).2.2 m
        (List.mem_append_right _ List.mem_cons_self)
      simp [History.requests, Moment.request?, act'] at alone

/-- When a call that ends a member has returned without an error, nothing has gone wrong so far. -/
theorem Run.calm_of_ok (nonempty : compressors ≠ [])
    (run : Run (Pipeline.new settings compressors sink) (h₁ ++ call :: h₂ ++ m :: h₃) s)
    (request? : call.request? = some r) (alone : History.requests (h₂ ++ [m]) = [])
    (ends : ∀ data, r.call ≠ .submit data) (outcome? : m.outcome? = some (.ok n)) :
    History.entries (h₁ ++ call :: h₂ ++ [m]) = History.entries (h₁ ++ call :: h₂) ∧
      History.mishaps (h₁ ++ call :: h₂ ++ [m]) = [] := by
  have through := run.split.2
  obtain ⟨-, -, nothing⟩ := run.done_of_ok nonempty request? alone ends outcome?
  have same : History.entries (h₁ ++ call :: h₂ ++ [m]) = History.entries (h₁ ++ call :: h₂) := by
    refine History.entries_concat_of_none _ ?_
    unfold Moment.submission?
    split
    · split
      · exact nothing
      · rfl
    · rfl
  refine ⟨same, ?_⟩
  refine List.eq_nil_iff_forall_not_mem.2 ?_
  intro mishap hmishap
  obtain ⟨p, submitted, concerns⟩ := through.exists_concerns nonempty hmishap
  have behind := (through.of_ok nonempty request? alone ends outcome?).2 mishap hmishap p concerns
  rw [same] at submitted
  omega

/-- With compressors that keep their word, entries that are all done, and of which the last one ends
    a member, have made whole members of what has been asked for. -/
theorem Run.exists_stream [RecordingSink ω] {h : History κ ω} {base : Bytes} {next : Option Nat}
    (nonempty : compressors ≠ [])
    (run : Run (Pipeline.new settings compressors sink) h s) (calm : h.mishaps = [])
    (program : (h.requests.dropLast.any fun r => r.call.closes) = false) (returned : s.Returned)
    (reached : h.entries.length ≤ s.sequencer.index)
    (last : h.entries.getLast? = some (.memberEnd next))
    (honours : ∀ c ∈ compressors, Honours c)
    (header : RecordingSink.contents sink = base ++ Frame.header settings.level) :
    let payloads := (Payloads.asked h.requests).whole
    payloads.flatten = h.requests.flatMap Request.submitted ∧
      payloads.length = h.requests.countP Request.endsMember ∧
      ∃ stream, Decodes stream payloads ∧ RecordingSink.contents s.sink = base ++ stream ++
        (if (h.requests.any fun r => r.call.closes) then [] else Frame.header settings.level) := by
  obtain ⟨result, phase⟩ := returned
  obtain ⟨payloads, ended, composed, owes⟩ := (run.performs nonempty calm program).owes
  rw [Owner.Owes, phase] at owes
  obtain ⟨rfl, rfl, -⟩ := owes
  obtain ⟨made, count, hmade, contents⟩ := run.contents_eq_of_done nonempty reached
  have faithful : List.Forall₂ Rendered.StandsFor made h.entries := by
    have related := forall₂_of_rendering
      (fun c entry rendered c' keeps made => BlockCompressor.Honours.standsFor keeps made)
      honours hmade
    rwa [count, List.take_length] at related
  obtain ⟨closing, complete, stream, isStream, whole⟩ :=
    composed.exists_isStream last faithful settings.level
  have flatten := Payloads.flatten_askAll .empty h.requests
  have length := Payloads.length_askAll .empty h.requests
  have current : (Payloads.empty.askAll h.requests).current = [] := complete
  rw [current, List.append_nil] at flatten
  refine ⟨flatten, length.trans (Nat.zero_add _), stream, isStream.decodes, ?_⟩
  rw [contents, header, List.append_assoc, whole, closing, List.append_assoc]
  cases next with
  | none => rfl
  | some level => rw [run.level_eq.2 level (List.mem_of_getLast? last)]; rfl

/-- A call that is being carried out and has returned in the end has returned at some moment. -/
theorem Run.exists_outcome {start : Pipeline κ ω} {h : History κ ω} {result : Except Error Nat}
    (run : Run start h s) (pending : ∀ result, start.owner.phase ≠ .ready result)
    (alone : h.requests = []) (ready : s.owner.phase = .ready result) :
    ∃ h₂ m h₃, h = h₂ ++ m :: h₃ ∧ m.outcome? = some result := by
  induction run with
  | start => exact absurd ready (pending result)
  | @step h s s' party run step ih =>
    rw [History.requests_append, List.append_eq_nil_iff] at alone
    have earlier : s.owner.phase = .ready result →
        ∃ h₂ m h₃, h ++ [⟨s, .step party, s'⟩] = h₂ ++ m :: h₃ ∧ m.outcome? = some result := by
      intro ready
      obtain ⟨h₂, m, h₃, rfl, outcome?⟩ := ih alone.1 ready
      exact ⟨h₂, m, h₃ ++ [⟨s, .step party, s'⟩], by simp, outcome?⟩
    cases party with
    | owner => exact ⟨h, _, [], rfl, by simp only [Moment.outcome?, ready]⟩
    | worker i => exact earlier ((frame_of_workerStep? step).owner ▸ ready)
    | sequencer => exact earlier ((move_of_sequencerStep? step).frame.2 ▸ ready)
  | request r run returned ih =>
    rw [History.requests_append, List.append_eq_nil_iff] at alone
    cases alone.2

end Pipeline

/-- A header alone is not a member. -/
theorem decompress_header (level : Nat) :
    decompress (Frame.header level) = .error (.ofDecoder endedInBody) := by
  have nothing : (Inflater.start #[]).inflate [] 65536 =
      (.hungry, [], Inflater.start #[], []) := by
    refine Inflater.inflate_of_run ?_ (List.append_nil _).symm
    rw [Inflater.start, Inflater.run]
  have body : readBody (Inflater.start #[]) (⟨.mk, 0, []⟩ : Buffered NoSource) 65536 =
      .result (.failed endedInBody) (.inside (.body (Inflater.start #[])) ⟨.mk, 0, []⟩) := by
    rw [readBody, Buffered.fillBuffer_of_nil rfl]
    dsimp only
    rw [nothing]
    rfl
  have opens := Buffered.parse_of_reads (b := (⟨.mk, 0, Frame.header level⟩ : Buffered NoSource))
    (reads_header level) (List.append_nil _).symm
  have read : Source.read (Members.new (⟨.mk, 0, Frame.header level⟩ : Buffered NoSource)) 65536 =
      (.failed endedInBody, ⟨.inside (.body (Inflater.start #[])) ⟨.mk, 0, []⟩, 1, false⟩) := by
    obtain ⟨rest, begins⟩ : ∃ rest, Frame.header level = 0x1f :: rest := ⟨_, rfl⟩
    show Members.read _ _ = _
    rw [Members.new, Members.read, if_neg (by decide), Members.readNext_eq,
      findMember_of_cons begins]
    dsimp only
    rw [openMember, opens]
    dsimp only
    rw [body]
  rw [decompress, Source.readToEnd, read]

namespace Writer

variable [BlockCompressor κ] [Sink ω] [RecordingSink ω] {sink : ω} {machine : Machine}
  {options : WriterOptions} {n : Nat} {compressor : Nat → κ} {w : Writer κ ω} {h : History κ ω}
  {s : Pipeline κ ω}

/-- Ending a member is a barrier. When a call that ends a member returns without an error, later
    than it has been asked for as a closed writer answers at once, then no call has returned an
    error so far and none before has closed the writer, all entries are in the sink, and the sink
    has been flushed behind the last byte. If the compressors keep their word, there are in the sink,
    behind what it held before, whole members, and behind them at most the header of the next one;
    there is a member for each end that has been asked for, and together they decode to what has been
    submitted. -/
theorem members_whole (valid : options.validate machine = .ok n)
    (opened : openWith machine sink options compressor = .opened w) (run : w.pipeline.Run h s)
    {h₁ h₂ h₃ : History κ ω} {call m : Moment κ ω} {r : Request} {k : Nat}
    (moments : h = h₁ ++ call :: h₂ ++ m :: h₃) (request? : call.request? = some r)
    (alone : History.requests (h₂ ++ [m]) = []) (ends : r.endsMember = true)
    (outcome? : m.outcome? = some (.ok k)) :
    let done := h₁ ++ call :: h₂ ++ [m]
    let payloads := (Payloads.asked done.requests).whole
    (∀ m' ∈ done, ∀ failure, m'.outcome? ≠ some (.error failure)) ∧
      (∀ r' ∈ h₁.requests, r'.call.closes = false) ∧
      (∃ made, made.length = done.entries.length ∧
        (∀ p, p < made.length →
          rendering ((List.range n).map compressor) done.entries p = made[p]?) ∧
        RecordingSink.contents m.after.sink =
          RecordingSink.contents sink ++ Frame.header options.level ++ Tally.zero.stitch made) ∧
      History.Flushed done m.after.sink ∧
      ((∀ i < n, Honours (compressor i)) →
        payloads.flatten = done.requests.flatMap Request.submitted ∧
        payloads.length = done.requests.countP Request.endsMember ∧
        ∃ stream, Decodes stream payloads ∧ RecordingSink.contents m.after.sink =
          RecordingSink.contents sink ++ stream ++ r.opens options.level) := by
  intro done payloads
  obtain ⟨sink', header, start⟩ := pipeline_of_openWith valid opened
  rw [start, moments] at run
  have nonempty := compressors_ne_nil valid compressor
  have notSubmit := Request.ne_submit ends
  obtain ⟨⟨next, last⟩, reached, -⟩ := run.done_of_ok nonempty request? alone notSubmit outcome?
  obtain ⟨same, calm⟩ := run.calm_of_ok nonempty request? alone notSubmit outcome?
  have unasked := run.not_asked_of_outcome? request? alone
  have through := run.split.2
  -- only the last request can be one to close
  have requests : done.requests = h₁.requests ++ [r] := by
    rw [History.requests_append, List.append_eq_nil_iff] at alone
    have cut : done = h₁ ++ [call] ++ (h₂ ++ [m]) := by simp [done]
    rw [cut, History.requests_append, History.requests_append h₂, alone.1, alone.2,
      History.requests_append]
    simp [History.requests, request?]
  have program : (done.requests.dropLast.any fun r => r.call.closes) = false := by
    rw [requests, List.dropLast_concat]
    exact unasked
  -- all the entries are done, and the last one is the end of the member
  have reached' : done.entries.length ≤ m.after.sequencer.index := by
    refine Nat.le_trans (same ▸ reached) (through.index_le m ?_)
    exact List.mem_append_right _ (List.mem_singleton.2 rfl)
  have last' : done.entries.getLast? = some (.memberEnd next) := by
    have cut : h₁ ++ call :: h₂ = h₁ ++ [call] ++ h₂ := by simp
    rw [show done.entries = _ from same, cut, History.entries_append, List.getLast?_append, last]
    rfl
  have held := RecordingSink.contents_of_writeAll_done header
  obtain ⟨made, count, hmade, contents⟩ := through.contents_eq_of_done nonempty reached'
  refine ⟨fun m' hm' => through.outcome_ne_error nonempty calm program hm', ?_,
    ⟨made, count, hmade, held ▸ contents⟩, through.flushed nonempty reached' last', ?_⟩
  · rw [List.any_eq_false] at unasked
    intro r' hr'
    simpa using unasked r' hr'
  intro honours
  obtain ⟨flatten, length, stream, decodes, whole⟩ := through.exists_stream nonempty calm program
    ⟨_, Moment.phase_of_outcome? outcome?⟩ reached' last' (fun c hc => by
      obtain ⟨i, hi, rfl⟩ := List.mem_map.1 hc
      exact honours i (List.mem_range.1 hi)) held
  refine ⟨flatten, length, stream, decodes, whole.trans ?_⟩
  rw [show (done.requests.any fun r => r.call.closes) = r.call.closes by
    rw [requests, List.any_append, unasked]; simp]
  cases r with
  | submit data => cases ends
  | flushMember | close | finish | drop => rfl

/-- A writer in memory with the options that are the default is asked to end a member. -/
theorem members_whole_flushed :
    ∃ (w : Writer DeflateCompressor (Array UInt8))
      (h₁ h₂ h₃ : History DeflateCompressor (Array UInt8))
      (call m : Moment DeflateCompressor (Array UInt8))
      (s : Pipeline DeflateCompressor (Array UInt8)) (k : Nat),
      openWith .ordinary #[] {} (fun _ => ⟨6, compressBufferSize ({} : WriterOptions).blockSize⟩) =
        .opened w ∧
      w.pipeline.Run (h₁ ++ call :: h₂ ++ m :: h₃) s ∧
      h₁.requests = [.submit [7], .submit [8, 9]] ∧ call.request? = some .flushMember ∧
      m.outcome? = some (.ok k) ∧
      ∃ stream payloads, Decodes stream payloads ∧ payloads.length = 1 ∧
        payloads.flatten = [7, 8, 9] ∧ m.after.sink.toList = stream ++ Frame.header 6 := by
  have valid := WriterOptions.validate_default .ordinary
  have opened := openWith_array (fun _ => DeflateCompressor.mk 6
    (compressBufferSize ({} : WriterOptions).blockSize)) valid Machine.hosts_default
  have pos := Nat.one_pos
  obtain ⟨h₁, s, run, requests, returned, unclosed⟩ := Pipeline.exists_run_requests pos
    (settings {} 1 valid) ((#[] : Array UInt8) ++ Frame.header 6) [.submit [7], .submit [8, 9]] rfl
  obtain ⟨later, rest, alone, stuck⟩ := Pipeline.exists_run_settle (s.request .flushMember)
  have whole := (run.request .flushMember returned).append rest
  have asked : History.requests (h₁ ++ [⟨s, .request .flushMember, s.request .flushMember⟩]
      ++ later) = [.submit [7], .submit [8, 9], .flushMember] := by
    rw [History.requests_append, History.requests_append, requests, alone]
    rfl
  have back := stuck.returned (Pipeline.libraryCompressors_ne_nil pos) whole.ordered whole.linked
  -- it returns without an error, as nothing goes wrong in memory
  have performs := whole.performs_of_sinkWorks pos (Pipeline.sinkWorks_array _)
    (by rw [asked]; rfl)
  obtain ⟨⟨k, ok⟩, -⟩ := performs.result_eq_ok back
  obtain ⟨result, ready⟩ := back
  rw [Pipeline.result, ready] at ok
  obtain rfl : result = .ok k := ok
  obtain ⟨h₂, m, h₃, rfl, outcome?⟩ := rest.exists_outcome (by
    rw [Pipeline.request_of_open unclosed]
    intro result same
    cases same) alone ready
  rw [List.append_assoc, List.singleton_append, ← List.cons_append, ← List.append_assoc] at whole
  have nothing : History.requests (h₂ ++ [m]) = [] := by
    rw [← List.append_nil h₃, ← List.singleton_append, ← List.append_assoc,
      History.requests_append, List.append_eq_nil_iff] at alone
    exact alone.1
  have told : History.requests (h₁ ++ ⟨s, .request .flushMember, s.request .flushMember⟩ :: h₂
      ++ [m]) = [.submit [7], .submit [8, 9], .flushMember] := by
    rw [List.append_assoc, List.cons_append, ← List.singleton_append, History.requests_append,
      History.requests_append, nothing, requests]
    rfl
  obtain ⟨-, -, -, -, keeps⟩ := members_whole valid opened whole rfl rfl nothing rfl outcome?
  obtain ⟨flatten, length, stream, decodes, contents⟩ :=
    keeps fun i _ => DeflateCompressor.honours _
  exact ⟨_, h₁, h₂, h₃, _, m, _, k, opened, whole, requests, rfl, outcome?, stream, _, decodes,
    length.trans (by rw [told]; rfl), flatten.trans (by rw [told]; rfl), contents⟩

/-- A closed writer has nothing to do when it is closed again, and answers without an error although
    the call before has failed: there is no member in the sink then, only the header. -/
theorem close_after_failure :
    ∃ (w : Writer ScriptedCompressor (Array UInt8))
      (h : History ScriptedCompressor (Array UInt8)) (m : Moment ScriptedCompressor (Array UInt8)),
      openWith .ordinary #[] {} (fun _ => ⟨.stored, 0, 0⟩) = .opened w ∧
      (∀ i, Honours ((fun _ => ⟨.stored, 0, 0⟩ : Nat → ScriptedCompressor) i)) ∧
      w.pipeline.Run (h ++ [m]) m.after ∧ m.request? = some .close ∧
      m.outcome? = some (.ok 0) ∧ ¬∃ payloads, Decodes m.after.sink.toList payloads := by
  obtain ⟨w, h, m, error, opened, failed, outcome?, sink⟩ := exists_failed_flush
  have phase := Moment.phase_of_outcome? outcome?
  obtain ⟨n, valid⟩ := exists_validate_of_openWith opened
  obtain ⟨sink', -, start⟩ := pipeline_of_openWith valid opened
  have shut := (start ▸ failed).closed_of_error phase
  have closed := failed.request .close ⟨_, phase⟩
  rw [Pipeline.request_of_closed shut] at closed
  refine ⟨w, _, _, opened, fun _ => ScriptedCompressor.honours_of_stored rfl, closed, rfl, rfl, ?_⟩
  rintro ⟨payloads, decodes⟩
  have whole : decompress m.after.sink.toList = .ok payloads.flatten := decodes.whole
  rw [sink, decompress_header] at whole
  cases whole

end Writer

end ParallelGzip
