import ParallelGzip.Proofs.Crossing
import ParallelGzip.Proofs.CutOff
import ParallelGzip.Proofs.Reader.Closing

set_option autoImplicit false

/-! # Nesting: readers that read from readers

A reader is a source, so another reader can read from it. The inner one breaks off when it has a
failure to report: its error goes through the stream, and the worker of the outer reader takes it for
what a decoder raised. Whoever classifies such an error looks at the kind first, so errors about the
options and about the input are put into words once more, and only the others are unwrapped. Decoding
on demand passes all of them on as they are. -/

namespace ParallelGzip

/-! ## Reading on to the failure -/

namespace Source

variable {σ τ : Type} [Source σ] [Source τ] {s : σ} {n : Nat} {known : IoError → Prop}

theorem StopsWith.passedOn {face : σ → τ} (passes : PassesOn face) (stops : StopsWith known s) :
    StopsWith known (face s) := by
  refine ⟨fun t => ∃ s, t = face s ∧ StopsWith known s, ?_, s, rfl, stops⟩
  rintro _ n ⟨s, rfl, stops⟩ pos
  have answer := stops.read pos
  rw [passes s n]
  generalize Source.read s n = result at answer ⊢
  cases answer with
  | delivered some next => exact .delivered some ⟨_, rfl, next⟩
  | interrupted next => exact .interrupted ⟨_, rfl, next⟩
  | failed fails => exact .failed fails

theorem BreaksOff.passedOn {face : σ → τ} {data : Bytes} {cause : IoError} {refusals : Nat}
    (passes : PassesOn face) (breaks : BreaksOff s data cause refusals) :
    BreaksOff (face s) data cause refusals := by
  refine ⟨fun t data refusals => ∃ s, t = face s ∧ BreaksOff s data cause refusals, ?_, s, rfl,
    breaks⟩
  rintro _ data refusals n ⟨s, rfl, breaks⟩
  have answer := breaks.read n
  rw [passes s n]
  generalize Source.read s n = result at answer ⊢
  cases answer with
  | piece some fits fewer next => exact .piece some fits fewer ⟨_, rfl, next⟩
  | nothing zero fewer next => exact .nothing zero fewer ⟨_, rfl, next⟩
  | interrupted kind fewer next => exact .interrupted kind fewer ⟨_, rfl, next⟩
  | failed => exact .failed

/-- A chunk of such a source is not empty, or the source has failed. -/
theorem StopsWith.readChunk (stops : StopsWith known s) (pos : 0 < n) (acc : Array UInt8) :
    (∃ cause, (Source.readChunk s n acc).2.1 = .failed cause ∧ known cause) ∨
      ((Source.readChunk s n acc).2.1 = .ended ∧ StopsWith known (Source.readChunk s n acc).2.2 ∧
        acc.size < (Source.readChunk s n acc).1.size) := by
  fun_induction Source.readChunk s n acc with
  | case1 => exact absurd rfl (Nat.ne_of_gt pos)
  | case2 s n acc some s' answer =>
    cases stops.answered pos answer with
    | delivered some => exact absurd rfl some
  | case3 s n acc some b bytes s' answer ih =>
    cases stops.answered pos answer with
    | delivered _ next =>
      have more : acc.size < (acc ++ (b :: bytes)).size := by
        rw [← Array.length_toList, ← Array.length_toList, Array.toList_appendList]
        simp
      by_cases full : n - (b :: bytes).length = 0
      · rw [full, Source.readChunk, if_pos rfl]
        exact .inr ⟨rfl, next, more⟩
      · refine (ih next (Nat.pos_of_ne_zero full)).imp_right ?_
        rintro ⟨ends, later, most⟩
        exact ⟨ends, later, Nat.lt_trans more most⟩
  | case4 s n acc some cause s' answer ih =>
    cases stops.answered pos answer with
    | interrupted next => exact ih next pos
  | case5 s n acc some cause s' answer =>
    cases stops.answered pos answer with
    | failed fails => exact .inl ⟨cause, rfl, fails⟩
  | case6 s n acc some s' answer => cases stops.answered pos answer

/-- Chunk by chunk a caller comes to one of the failures. -/
theorem StopsWith.readChunks (stops : StopsWith known s) (pos : 0 < n) :
    ∃ cause, (Source.readChunks s n).2 = .failed cause ∧ known cause := by
  fun_induction Source.readChunks s n with
  | case1 s chunk s' result empty =>
    rcases stops.readChunk pos #[] with ⟨cause, failed, -⟩ | ⟨-, -, some⟩
    · rw [result] at failed
      cases failed
    · rw [result, empty] at some
      cases some
  | case2 s chunk s' result some chunks ending later ih =>
    rcases stops.readChunk pos #[] with ⟨cause, failed, -⟩ | ⟨-, next, -⟩
    · rw [result] at failed
      cases failed
    · rw [result] at next
      have comes := ih next
      rwa [later] at comes
  | case3 s chunk cause s' result =>
    rcases stops.readChunk pos #[] with ⟨cause', failed, fails⟩ | ⟨ended, -, -⟩
    · rw [result] at failed
      cases failed
      exact ⟨_, rfl, fails⟩
    · rw [result] at ended
      cases ended
  | case4 s chunk s' result =>
    rcases stops.readChunk pos #[] with ⟨cause, failed, -⟩ | ⟨ended, -, -⟩
    · rw [result] at failed
      cases failed
    · rw [result] at ended
      cases ended

/-- Reading to the end comes to one of the failures, and not to the end. -/
theorem StopsWith.readToEnd (stops : StopsWith known s) (pos : 0 < n) (acc : Array UInt8) :
    ∃ cause, (Source.readToEnd s n acc).2.1 = .failed cause ∧ known cause := by
  fun_induction Source.readToEnd s n acc with
  | case1 s acc s' answer =>
    cases stops.answered pos answer with
    | delivered some => exact absurd rfl some
  | case2 s acc c bytes s' answer ih =>
    cases stops.answered pos answer with
    | delivered _ next => exact ih next
  | case3 s acc cause s' answer ih =>
    cases stops.answered pos answer with
    | interrupted next => exact ih next
  | case4 s acc cause s' answer =>
    cases stops.answered pos answer with
    | failed fails => exact ⟨cause, rfl, fails⟩
  | case5 s acc s' answer => cases stops.answered pos answer

end Source

namespace Buffered

variable {σ : Type} [Source σ] {b : Buffered σ} {known : IoError → Prop} {n : Nat}

theorem StopsWith.read (stops : b.StopsWith known) (pos : 0 < n) :
    Source.Stops (StopsWith known) known (b.read n) := by
  obtain ⟨source, capacity, buffer⟩ := b
  rw [Buffered.read]
  split
  -- a large request goes past the buffer
  · have answer := stops.source.read pos
    dsimp only at answer ⊢
    generalize Source.read source n = result at answer ⊢
    cases answer with
    | delivered some next => exact .delivered some ⟨stops.room, next⟩
    | interrupted next => exact .interrupted ⟨stops.room, next⟩
    | failed fails => exact .failed fails
  · have alike := stops.fillBuffer
    generalize Buffered.fillBuffer ⟨source, capacity, buffer⟩ = filled at alike ⊢
    generalize Buffered.fillBuffer (Buffered.mute ⟨source, capacity, buffer⟩) = muted at alike
    cases alike with
    | failed fails => exact .failed fails
    | same goes next =>
      cases goes with
      | interrupted cause => exact .interrupted next
      | @delivered bytes some =>
        refine .delivered ?_ (next.withBuffer _)
        rw [Ne, List.take_eq_nil_iff]
        exact not_or.2 ⟨Nat.ne_of_gt pos, some⟩

end Buffered

/-- A buffer in front of a source stops with what the source does. -/
theorem Source.StopsWith.buffered {σ : Type} [Source σ] {s : σ} {known : IoError → Prop}
    {capacity : Nat} (stops : Source.StopsWith known s) (room : 0 < capacity) :
    Source.StopsWith known (⟨s, capacity, []⟩ : Buffered σ) :=
  ⟨Buffered.StopsWith known, fun _ _ stops pos => stops.read pos, room, stops⟩

/-! ## Readers break off -/

section Readers

variable {σ : Type} [Source σ] {s : σ} {options : ReaderOptions} {r : Reader σ} {bytes : Bytes}

/-- A reader that goes with a failure breaks off with it. The failure stays in its slot, which shares
    it. -/
theorem Session.Follows.breaksOff {payload : Bytes} {failure : Error} {answered : Transcript}
    (follows : Session.Follows bytes (some failure) ⟨r, none, answered⟩)
    (ahead : bytes = Transcript.handed answered ++ payload) :
    Source.BreaksOff r payload (failure.toIo true) 0 := by
  refine ⟨fun r payload _ => ∃ answered, Session.Follows bytes (some failure) ⟨r, none, answered⟩ ∧
    bytes = Transcript.handed answered ++ payload, ?_, answered, follows, ahead⟩
  rintro r payload refusals n ⟨answered, follows, ahead⟩
  obtain ⟨answer, r', result, next, fits⟩ := follows.read ahead n
  rw [result]
  rw [ReadRequest.Fits] at fits
  split at fits
  · next zero =>
    subst fits
    exact .nothing zero (Nat.le_refl _) ⟨_, next, Transcript.ahead_concat ahead n⟩
  · rw [Delivers] at fits
    split at fits
    · next none =>
      subst none fits
      exact .failed
    · obtain ⟨piece, rfl, some, ⟨later, rfl⟩, few⟩ := fits
      exact .piece some few (Nat.le_refl _) ⟨_, next, Transcript.ahead_concat ahead n⟩

namespace Reader

/-- Whatever its source does, a reader hands over some bytes and then tells the end or a failure, and
    if it is a failure, the reader breaks off. -/
theorem exists_breaksOff (opened : Reader.open s options = .done r) :
    ∃ bytes failure?, r.HandsOver bytes failure? ∧
      ∀ failure, failure? = some failure → Source.BreaksOff r bytes (failure.toIo true) 0 := by
  obtain ⟨-, follows⟩ := follows_chunks opened
  refine ⟨_, _, follows.handsOver, ?_⟩
  intro failure fails
  rw [fails] at follows
  exact follows.breaksOff rfl

/-- A reader of damaged or truncated data breaks off with what it has to report about it. -/
theorem breaksOff_of_serves {data : Bytes} {cause : IoError} {refusals : Nat}
    (serves : Source.Serves s data refusals) (unfailing : Source.Unfailing s)
    (opened : Reader.open s options = .done r) (fails : (verdictOn 0 data).failure = some cause) :
    ∃ bytes, bytes <+: (verdictOn 0 data).payload ∧
      Source.BreaksOff r bytes ((Error.ofDecoder cause).toIo true) 0 := by
  obtain ⟨bytes, front, -, follows⟩ := follows_of_open serves unfailing opened
  have follows := follows _ .refl
  rw [fails] at follows
  exact ⟨bytes, front, follows.breaksOff rfl⟩

/-- A closed reader breaks off at once. -/
theorem breaksOff_of_closed (closed : r.closed = true) :
    Source.BreaksOff r [] (Error.closed.toIo true) 0 := by
  refine ⟨fun r data _ => r.closed = true ∧ data = [], ?_, closed, rfl⟩
  rintro r data refusals n ⟨closed, rfl⟩
  have refuses : r.readInto n = (.error .closed, r) := by
    rw [readInto, fill, if_pos closed, if_pos closed, ite_self]
  show Source.Breaks _ _ n [] refusals (toReadResult (r.readInto n).1, (r.readInto n).2)
  rw [refuses]
  exact .failed

/-- A reader over a source that breaks off fails as the source does, in the words for what a decoder
    raised, unless the data before is damaged. -/
theorem exists_handsOver_of_breaksOff {data : Bytes} {cause : IoError} {refusals : Nat}
    (breaks : Source.BreaksOff s data cause refusals) (unblocked : cause.kind ≠ .wouldBlock)
    (valid : options.validate = .ok ())
    (allocates : canAllocate placeSize options.queueSize = true) :
    ∃ r bytes blamed, Reader.open s options = .done r ∧ Members.Blames data cause blamed ∧
      r.HandsOver bytes (some (.ofDecoder blamed)) := by
  have opened : Reader.open s options = .done (.new s options.blockSize options.queueSize) :=
    open_eq_done_iff.2 ⟨valid, allocates, rfl⟩
  obtain ⟨pos, follows⟩ := follows_chunks opened
  have stops := Members.stopsWith_of_breaksOff breaks unblocked (show 0 < inputCapacity by decide)
  obtain ⟨blamed, ending, blames⟩ := stops.readChunks pos
  rw [ending] at follows
  exact ⟨_, _, blamed, opened, blames, follows.handsOver⟩

end Reader

end Readers

/-! ## Classification -/

namespace Error

/-- An error that is put into words is another error. -/
theorem ne_renamed (error : Error) (shared : Bool) :
    unexpectedEof (error.toIo shared).message ≠ error ∧
      decompression (error.toIo shared).message ≠ error := by
  have longer : ∀ front reason : String, front ≠ "" → front ++ reason ≠ reason := by
    intro front reason some same
    have length := congrArg String.length same
    rw [String.length_append] at length
    have none : front.length = 0 := by omega
    exact some (String.length_eq_zero_iff.1 none)
  cases error with
  | unexpectedEof reason =>
    exact ⟨fun same => longer _ reason (by decide) (unexpectedEof.inj same), nofun⟩
  | decompression reason =>
    exact ⟨nofun, fun same => longer _ reason (by decide) (decompression.inj same)⟩
  | _ => exact ⟨nofun, nofun⟩

/-- Classifying gives back what it was given just if it does not count as bad or short input. -/
theorem ofDecoder_toIo_eq_iff {error : Error} (plain : error.Plain) (shared : Bool) :
    ofDecoder (error.toIo shared) = error ↔
      error.streamKind ∉ [IoKind.unexpectedEof, .invalidInput, .invalidData] := by
  obtain ⟨short, damaged⟩ := error.ne_renamed shared
  rw [ofDecoder, kind_toIo]
  split
  · next kind => simp [kind, short]
  · next kind => simp [kind, damaged]
  · next kind => simp [kind, damaged]
  · next notShort notInput notData =>
    simp only [ofIo_toIo plain, List.mem_cons, List.not_mem_nil, or_false, true_iff, not_or]
    exact ⟨notShort, notInput, notData⟩

theorem ofDecoder_toIo_eq_iff_of_own {error : Error} (own : ∀ cause, error ≠ io cause)
    (shared : Bool) : ofDecoder (error.toIo shared) = error ↔
      error.isConfiguration = false ∧ error.isCorruptInput = false := by
  have plain : error.Plain := by
    cases error with
    | io cause => exact absurd rfl (own cause)
    | _ => trivial
  rw [ofDecoder_toIo_eq_iff plain]
  cases error with
  | io cause => exact absurd rfl (own cause)
  | _ => simp [streamKind, isConfiguration, isCorruptInput]

theorem message_toIo_of_own {error : Error} (own : ∀ cause, error ≠ io cause) (shared : Bool) :
    (error.toIo shared).message = error.message := by
  cases error with
  | io cause => exact absurd rfl (own cause)
  | _ => rfl

/-- Decoders rename errors. An error of the library that a decoder meets on its way through a stream
    is unwrapped only if it is not about the options or about the input; one that is, whoever shares
    it, becomes another error about the input with the message of the first for its reason. Readers
    bring that about, since each breaks off with the failure it has to report, which for damaged or
    truncated data is the verdict on it and for a closed one that it is closed; an input with a worker
    does the same. A reader over a source that breaks off with an error, and so an input with a
    worker, fails with that error as it is classified, and an input without a worker with the error
    itself, as long as the data before it is not damaged. -/
theorem decoders_rename_errors {error : Error} (plain : error.Plain) (shared : Bool) :
    ((error.streamKind = .unexpectedEof →
        ofDecoder (error.toIo shared) = unexpectedEof (error.toIo shared).message) ∧
      (error.streamKind = .invalidInput ∨ error.streamKind = .invalidData →
        ofDecoder (error.toIo shared) = decompression (error.toIo shared).message) ∧
      (ofDecoder (error.toIo shared) = error ↔
        error.streamKind ∉ [IoKind.unexpectedEof, .invalidInput, .invalidData]) ∧
      ((∀ cause, error ≠ io cause) → (error.toIo shared).message = error.message ∧
        (ofDecoder (error.toIo shared) = error ↔
          error.isConfiguration = false ∧ error.isCorruptInput = false))) ∧
      (∀ {τ : Type} [Source τ] {inner : Reader τ},
        (∀ {t : τ} {options : ReaderOptions}, Reader.open t options = .done inner →
          ∃ bytes failure?, inner.HandsOver bytes failure? ∧ ∀ failure, failure? = some failure →
            Source.BreaksOff inner bytes (failure.toIo true) 0) ∧
        (∀ {t : τ} {data : Bytes} {refusals : Nat} {options : ReaderOptions} {cause : IoError},
          Source.Serves t data refusals → Source.Unfailing t →
          Reader.open t options = .done inner → (verdictOn 0 data).failure = some cause →
            ∃ bytes, bytes <+: (verdictOn 0 data).payload ∧
              Source.BreaksOff inner bytes ((ofDecoder cause).toIo true) 0) ∧
        (inner.closed = true → Source.BreaksOff inner [] (closed.toIo true) 0)) ∧
      (∀ {τ : Type} [Source τ] {inner : Reader (Origin τ)} {bytes : Bytes} {cause : IoError}
        {refusals : Nat}, Source.BreaksOff inner bytes cause refusals →
          Source.BreaksOff (Input.ahead inner) bytes cause refusals) ∧
      ∀ {σ : Type} [Source σ] {s : σ} {files : Files} {data : Bytes} {refusals : Nat}
        {options : ReaderOptions},
        Source.BreaksOff s data (error.toIo shared) refusals → error.streamKind ≠ .wouldBlock →
        options.validate = .ok () →
          (canAllocate Reader.placeSize options.queueSize = true →
            ∃ blamed, Members.Blames data (error.toIo shared) blamed ∧
              ∃ outer bytes, Reader.open s options = .done outer ∧
                outer.HandsOver bytes (some (ofDecoder blamed))) ∧
          (options.threads.isDisabled = false →
            canAllocate Reader.placeSize options.queueSize = true →
            ∃ blamed, Members.Blames data (error.toIo shared) blamed ∧
              ∃ outer bytes, Input.open files (.stream s) options = .done (.ahead outer) ∧
                outer.HandsOver bytes (some (ofDecoder blamed))) ∧
          (options.threads.isDisabled = true →
            ∃ decoder, Input.open files (.stream s) options = .done (.onDemand decoder) ∧
              Source.StopsWith (Members.Blames data (error.toIo shared)) (Input.onDemand decoder) ∧
              ∀ n, 0 < n → ∃ blamed, Members.Blames data (error.toIo shared) blamed ∧
                (Source.readToEnd (Input.onDemand decoder) n #[]).2.1 = .failed blamed) := by
  refine ⟨⟨?short, ?damaged, ofDecoder_toIo_eq_iff plain shared, ?own⟩, ?inner,
    fun breaks => breaks.passedOn Input.passesOn_ahead, ?outer⟩
  case short =>
    intro short
    rw [ofDecoder, kind_toIo, short]
  case damaged =>
    rintro (options | damaged)
    · rw [ofDecoder, kind_toIo, options]
    · rw [ofDecoder, kind_toIo, damaged]
  case own =>
    intro own
    exact ⟨message_toIo_of_own own shared, ofDecoder_toIo_eq_iff_of_own own shared⟩
  case inner =>
    intro τ _ inner
    exact ⟨Reader.exists_breaksOff, Reader.breaksOff_of_serves, Reader.breaksOff_of_closed⟩
  case outer =>
    intro σ _ s files data refusals options breaks unblocked valid
    rw [← kind_toIo error shared] at unblocked
    have behind : Source.BreaksOff (Origin.stream s) data (error.toIo shared) refusals :=
      breaks.passedOn Origin.passesOn_stream
    refine ⟨?_, ?_, ?_⟩
    · intro allocates
      obtain ⟨outer, bytes, blamed, opened, blames, hands⟩ :=
        Reader.exists_handsOver_of_breaksOff breaks unblocked valid allocates
      exact ⟨blamed, blames, outer, bytes, opened, hands⟩
    · intro enabled allocates
      obtain ⟨outer, bytes, blamed, opened, blames, hands⟩ :=
        Reader.exists_handsOver_of_breaksOff behind unblocked valid allocates
      exact ⟨blamed, blames, outer, bytes, Input.open_eq_ahead rfl valid enabled opened, hands⟩
    · intro disabled
      have some := (ReaderOptions.validate_eq_ok_iff.1 valid).1
      have decodes := Members.stopsWith_of_breaksOff behind unblocked
        (show 0 < Input.fetchCapacity by decide)
      have stops := (decodes.buffered (Nat.pos_of_ne_zero some)).passedOn Input.passesOn_onDemand
      refine ⟨_, Input.open_eq_onDemand rfl valid disabled, stops, ?_⟩
      intro n pos
      obtain ⟨blamed, failed, blames⟩ := stops.readToEnd pos #[]
      exact ⟨blamed, blames, failed⟩

/-- A reader reads from one whose input has a bad header, and then from the same when it has been
    closed. The second report gets through, and without a worker so does the first. -/
theorem decoders_rename_errors_bad_header :
    let source : Scheduled := ⟨List.replicate 10 0, []⟩
    let options : ReaderOptions := { blockSize := 3, queueSize := 1 }
    let plain : ReaderOptions := { options with threads := .fixed 0 }
    let inner : Reader Scheduled := .new source 3 1
    let header : Error := decompression "invalid gzip header"
    Reader.open source options = .done inner ∧
      Source.BreaksOff inner [] (header.toIo true) 0 ∧
      (∃ outer bytes, Reader.open inner options = .done outer ∧
        outer.HandsOver bytes (some (decompression "Decompression error: invalid gzip header"))) ∧
      (∃ decoder, Input.open {} (.stream inner) plain = .done (.onDemand decoder) ∧
        (Source.readToEnd (Input.onDemand decoder) 2 #[]).2.1 = .failed (header.toIo true)) ∧
      ∃ outer bytes, Input.open {} (.stream inner.close) options = .done (.ahead outer) ∧
        outer.HandsOver bytes (some closed) := by
  intro source options plain inner header
  obtain ⟨ofHeader, broken, -, stacked⟩ := decoders_rename_errors (show header.Plain by trivial) true
  obtain ⟨ofClosed, -, -, behindClosed⟩ :=
    decoders_rename_errors (show closed.Plain by trivial) true
  obtain ⟨-, ofData, -⟩ := @broken Scheduled _ inner
  obtain ⟨-, -, shuts⟩ := @broken Scheduled _ inner.close
  have blank : beginning 0 (List.replicate 10 0) ≠ [] := by decide
  have verdict : verdictOn 0 (List.replicate 10 0) = ⟨[], some MemberDefect.header.toIo, 1⟩ := by
    rw [verdictOn_of_ne_nil blank]
    rfl
  obtain ⟨bytes, front, breaks⟩ := ofData source.serves (Scheduled.unfailing (by simp [source]))
    (rfl : Reader.open source options = .done inner) (congrArg Verdict.failure verdict)
  rw [verdict, List.prefix_nil] at front
  subst front
  have breaks : Source.BreaksOff inner [] (header.toIo true) 0 := breaks
  have shut : inner.close.closed = true := (Reader.Closing.over_run ⟨rfl, .inl rfl⟩).1.closed
  have nothing : ∀ {cause blamed : IoError}, Members.Blames [] cause blamed → blamed = cause := by
    intro cause blamed blames
    refine blames.eq ?_
    rw [verdictOn_of_nil (beginning_nil 0)]
    nofun
  have renamed : ofDecoder (header.toIo true) =
      decompression "Decompression error: invalid gzip header" :=
    ofHeader.2.1 (.inr rfl)
  have kept : ofDecoder (closed.toIo true) = closed := ofClosed.2.2.1.2 (by decide)
  refine ⟨rfl, breaks, ?_, ?_, ?_⟩
  · obtain ⟨reads, -, -⟩ := @stacked _ _ inner {} _ _ options breaks nofun rfl
    obtain ⟨blamed, blames, outer, bytes, opened, hands⟩ := reads (by decide)
    obtain rfl := nothing blames
    rw [renamed] at hands
    exact ⟨outer, bytes, opened, hands⟩
  · obtain ⟨-, -, reads⟩ := @stacked _ _ inner {} _ _ plain breaks nofun rfl
    obtain ⟨decoder, opened, -, fails⟩ := reads rfl
    obtain ⟨blamed, blames, failed⟩ := fails 2 (by decide)
    obtain rfl := nothing blames
    exact ⟨decoder, opened, failed⟩
  · obtain ⟨-, reads, -⟩ := @behindClosed _ _ inner.close {} _ _ options (shuts shut) nofun rfl
    obtain ⟨blamed, blames, outer, bytes, opened, hands⟩ := reads rfl (by decide)
    obtain rfl := nothing blames
    rw [kept] at hands
    exact ⟨outer, bytes, opened, hands⟩

/-- The report of a bad magic number is not classified as what it was. -/
theorem bad_magic_renamed :
    ¬∀ error : Error, error.Plain →
      (∀ cause, error = io cause →
        cause.kind ∉ [IoKind.unexpectedEof, .invalidInput, .invalidData]) →
      ∀ shared, ofDecoder (error.toIo shared) = error := by
  intro unwraps
  have same := unwraps (decompression "bad magic") trivial nofun false
  have text : "Decompression error: bad magic" = "bad magic" := decompression.inj same
  exact absurd text (by decide)

end Error

end ParallelGzip
