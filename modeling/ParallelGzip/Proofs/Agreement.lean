import ParallelGzip.Input
import ParallelGzip.Proofs.Tells

set_option autoImplicit false

/-! # Agreement: all ways to decode come to the same

A byte string can be decoded at once, by a reader that decodes ahead, and by an input, with a worker
or without one. Each way fetches in its own portions, hands over in its own portions, and meets a
failure in its own place; all of them tell the verdict on the data. For each way there is one lemma
that says so, and `decode_ways_agree` puts them together. -/

namespace ParallelGzip

/-! ## Verdicts -/

/-- The verdict on data never blames anything but the data. -/
theorem fromDecoder_of_verdictOn {started : Nat} {data : Bytes} {cause : IoError}
    (fails : (verdictOn started data).failure = some cause) : cause.FromDecoder := by
  fun_induction verdictOn started data with
  | case1 => cases fails
  | case2 started data some payload cause' failed =>
    cases fails
    exact Prospect.fromDecoder_ofHeader (congrArg Prospect.fate failed)
  | case3 started data some payload rest ends ih => exact ih fails

/-! ## Sources behind another face -/

namespace Source

section Faces

variable {σ τ : Type} [Source σ] [Source τ] {face : σ → τ} {s : σ}

/-- A source that passes its requests on. -/
def PassesOn (face : σ → τ) : Prop :=
  ∀ s n, Source.read (face s) n = ((Source.read s n).1, face (Source.read s n).2)

theorem Serves.passedOn {data : Bytes} {refusals : Nat} (passes : PassesOn face)
    (serves : Serves s data refusals) : Serves (face s) data refusals := by
  refine ⟨fun t data refusals => ∃ s, t = face s ∧ Serves s data refusals, ?_, s, rfl, serves⟩
  rintro _ data refusals n ⟨s, rfl, serves⟩
  have answers := serves.read n
  rw [passes s n]
  generalize Source.read s n = answer at answers ⊢
  cases answers with
  | piece some fits fewer next => exact .piece some fits fewer ⟨_, rfl, next⟩
  | nothing none fewer next => exact .nothing none fewer ⟨_, rfl, next⟩
  | interrupted kind fewer next => exact .interrupted kind fewer ⟨_, rfl, next⟩
  | blocked kind fewer next => exact .blocked kind fewer ⟨_, rfl, next⟩

theorem FailsOnly.passedOn {known : IoError → Prop} (passes : PassesOn face)
    (only : FailsOnly known s) : FailsOnly known (face s) := by
  refine ⟨fun t => ∃ s, t = face s ∧ FailsOnly known s, ?_, s, rfl, only⟩
  rintro _ n ⟨s, rfl, only⟩
  rw [passes s n]
  obtain ⟨fails, next⟩ := only.read (rfl : Source.read s n = (_, _))
  exact ⟨fails, _, rfl, next⟩

theorem Tells.passedOn {payload : Bytes} {failure? : Option IoError} {refusals : Nat}
    (passes : PassesOn face) (tells : Tells s payload failure? refusals) :
    Tells (face s) payload failure? refusals := by
  refine ⟨fun t payload refusals => ∃ s, t = face s ∧ Tells s payload failure? refusals, ?_, s, rfl,
    tells⟩
  rintro _ payload refusals n ⟨s, rfl, tells⟩
  have replies := tells.read n
  rw [passes s n]
  generalize Source.read s n = answer at replies ⊢
  cases replies with
  | piece some fewer next => exact .piece some fewer ⟨_, rfl, next⟩
  | nothing zero fewer next => exact .nothing zero fewer ⟨_, rfl, next⟩
  | interrupted fewer next => exact .interrupted fewer ⟨_, rfl, next⟩
  | ended ends fewer next => exact .ended ends fewer ⟨_, rfl, next⟩
  | failed fails complete => exact .failed fails complete

end Faces

end Source

section Inputs

variable {σ : Type} [Source σ]

theorem Origin.passesOn_stream : Source.PassesOn (Origin.stream : σ → Origin σ) := fun _ _ => rfl

theorem Origin.passesOn_file : Source.PassesOn (Origin.file : InputFile → Origin σ) :=
  fun _ _ => rfl

theorem Input.passesOn_ahead : Source.PassesOn (Input.ahead : Reader (Origin σ) → Input σ) :=
  fun _ _ => rfl

theorem Input.passesOn_onDemand :
    Source.PassesOn (Input.onDemand : Buffered (Members (Origin σ)) → Input σ) := fun _ _ => rfl

/-! ## The ways to decode -/

variable {files : Files} {provider : Provider σ} {origin : Origin σ} {data : Bytes}
  {refusals : Nat} {options : ReaderOptions}

/-- Whatever a caller asks of a reader and whatever the order of the steps, every request is answered
    with some of these bytes as long as there are any, and then with this failure or the end. -/
def Reader.HandsOver {σ : Type} [Source σ] (r : Reader σ) (bytes : Bytes) (error? : Option Error) :
    Prop :=
  ∀ s, Relation.ReflTransGen Session.Step (Session.start r) s →
    s.Returns ∧ Transcript.Sound bytes error? s.answered

/-- A reader hands over what its sessions go with. -/
theorem Session.Follows.handsOver {σ : Type} [Source σ] {r : Reader σ} {bytes : Bytes}
    {error? : Option Error} (follows : Session.Follows bytes error? (Session.start r)) :
    r.HandsOver bytes error? := by
  intro session reached
  have later := Session.follows_of_reaches follows reached
  exact ⟨later.returns, later.sound⟩

/-- A reader hands the verdict over. -/
theorem Reader.exists_handsOver {s : σ} (serves : Source.Serves s data refusals)
    (unfailing : Source.Unfailing s) (valid : options.validate = .ok ())
    (room : canAllocate placeSize options.queueSize = true) :
    ∃ r bytes, Reader.open s options = .done r ∧
      Source.Comes (verdictOn 0 data).payload (verdictOn 0 data).failure bytes
        (.behind (verdictOn 0 data).failure) ∧
      r.HandsOver bytes ((verdictOn 0 data).failure.map Error.ofDecoder) ∧
      Source.Tells r bytes
        ((verdictOn 0 data).failure.map fun cause => (Error.ofDecoder cause).toIo true) 0 := by
  have opened : Reader.open s options = .done (.new s options.blockSize options.queueSize) :=
    Reader.open_eq_done_iff.2 ⟨valid, room, rfl⟩
  obtain ⟨bytes, front, complete, follows⟩ := Reader.follows_of_open serves unfailing opened
  refine ⟨_, bytes, opened, ⟨rfl, front, complete⟩, (follows _ .refl).handsOver, ?_⟩
  have tells := (follows _ .refl).tells rfl
  rwa [Option.map_map] at tells

omit [Source σ] in
/-- Without a worker an input decodes on demand. -/
theorem Input.open_eq_onDemand (provides : files.openProvider provider = .ok origin)
    (valid : options.validate = .ok ()) (disabled : options.threads.isDisabled = true) :
    Input.open files provider options =
      .done (.onDemand ⟨Members.new ⟨origin, fetchCapacity, []⟩, options.blockSize, []⟩) := by
  rw [Input.open, valid]
  dsimp only
  rw [provides]
  dsimp only
  rw [if_pos disabled]

omit [Source σ] in
/-- With a worker it decodes ahead. -/
theorem Input.open_eq_ahead {r : Reader (Origin σ)}
    (provides : files.openProvider provider = .ok origin) (valid : options.validate = .ok ())
    (enabled : options.threads.isDisabled = false) (opened : Reader.open origin options = .done r) :
    Input.open files provider options = .done (.ahead r) := by
  rw [Input.open, valid]
  dsimp only
  rw [provides]
  dsimp only
  rw [if_neg (by rw [enabled]; exact Bool.false_ne_true), opened]

end Inputs

/-- All ways to decode a byte string that a source serves without failing agree, whatever the sizes
    of its pieces and wherever it is interrupted: they come to the same payload and the end, or all
    of them fail, and then with the same error, which blames the input. -/
theorem decode_ways_agree {σ τ : Type} [Source σ] [Source τ] {source : σ} {files : Files}
    {provider : Provider τ} {origin : Origin τ} {data : Bytes} {refusals refusals' : Nat}
    (serves : Source.Serves source data refusals) (unfailing : Source.Unfailing source)
    (provides : files.openProvider provider = .ok origin)
    (serves' : Source.Serves origin data refusals') (unfailing' : Source.Unfailing origin) :
    ∃ (payload : Bytes) (failure? : Option IoError),
      decompress data =
        (match failure? with
          | none => .ok payload
          | some cause => .error (.ofDecoder cause)) ∧
      (∀ cause, failure? = some cause → (Error.ofDecoder cause).isCorruptInput = true ∧
        Error.ofIo ((Error.ofDecoder cause).toIo true) = .ofDecoder cause) ∧
      ∀ options : ReaderOptions, options.validate = .ok () →
        (canAllocate Reader.placeSize options.queueSize = true →
          ∃ r bytes, Reader.open source options = .done r ∧
            Source.Comes payload failure? bytes (.behind failure?) ∧
            r.HandsOver bytes (failure?.map Error.ofDecoder)) ∧
        (options.threads.isDisabled = true →
          ∃ decoder, Input.open files provider options = .done (.onDemand decoder) ∧
            Source.ReadsOut (Input.onDemand decoder) payload failure?
              (payload.length + refusals')) ∧
        (options.threads.isDisabled = false →
          canAllocate Reader.placeSize options.queueSize = true →
          ∃ r bytes, Input.open files provider options = .done (.ahead r) ∧
            Source.Comes payload failure? bytes (.behind failure?) ∧
            r.HandsOver bytes (failure?.map Error.ofDecoder) ∧
            Source.ReadsOut (Input.ahead r) bytes
              (failure?.map fun cause => (Error.ofDecoder cause).toIo true) bytes.length) := by
  refine ⟨(verdictOn 0 data).payload, (verdictOn 0 data).failure, decompress_eq data, ?_, ?_⟩
  · intro cause fails
    have own := fromDecoder_of_verdictOn fails
    exact ⟨own.isCorruptInput_ofDecoder, own.ofIo_toIo_ofDecoder true⟩
  intro options valid
  refine ⟨?_, ?_, ?_⟩
  · intro room
    obtain ⟨r, bytes, opened, comes, hands, -⟩ :=
      Reader.exists_handsOver serves unfailing valid room
    exact ⟨r, bytes, opened, comes, hands⟩
  · intro disabled
    refine ⟨_, Input.open_eq_onDemand provides valid disabled, ?_⟩
    have some := (ReaderOptions.validate_eq_ok_iff.1 valid).1
    have told := Members.tells serves' unfailing' (show 0 < Input.fetchCapacity by decide)
    exact ((told.buffered (Nat.pos_of_ne_zero some)).passedOn Input.passesOn_onDemand).readsOut
  · intro enabled room
    obtain ⟨r, bytes, opened, comes, hands, tells⟩ :=
      Reader.exists_handsOver serves' unfailing' valid room
    exact ⟨r, bytes, Input.open_eq_ahead provides valid enabled opened, comes, hands,
      (tells.passedOn Input.passesOn_ahead).readsOut⟩

/-- A member that is damaged behind its first bytes. One source serves it byte by byte, with an
    interruption, the other at once. -/
theorem decode_ways_agree_damaged :
    let data : Bytes := Frame.header 6 ++ [7, 0, 0]
    let source : Scheduled := ⟨data, [.serve 0, .interrupted, .serve 0]⟩
    let origin : Origin Scheduled := .stream ⟨data, [.interrupted]⟩
    let provider : Provider Scheduled := .stream ⟨data, [.interrupted]⟩
    let plain : ReaderOptions := { threads := .fixed 0, blockSize := 3 }
    let ahead : ReaderOptions := { threads := .fixed 2, blockSize := 3, queueSize := 1 }
    Source.Serves source data 3 ∧ Source.Unfailing source ∧
      Files.openProvider {} provider = .ok origin ∧
      Source.Serves origin data 1 ∧ Source.Unfailing origin ∧
      ∃ (payload : Bytes) (failure? : Option IoError),
        decompress data =
          (match failure? with
            | none => .ok payload
            | some cause => .error (.ofDecoder cause)) ∧
        (∀ cause, failure? = some cause → (Error.ofDecoder cause).isCorruptInput = true ∧
          Error.ofIo ((Error.ofDecoder cause).toIo true) = .ofDecoder cause) ∧
        (∃ r bytes, Reader.open source ahead = .done r ∧
          Source.Comes payload failure? bytes (.behind failure?) ∧
          r.HandsOver bytes (failure?.map Error.ofDecoder)) ∧
        (∃ decoder, Input.open {} provider plain = .done (.onDemand decoder) ∧
          Source.ReadsOut (Input.onDemand decoder) payload failure? (payload.length + 1)) ∧
        ∃ r bytes, Input.open {} provider ahead = .done (.ahead r) ∧
          Source.Comes payload failure? bytes (.behind failure?) ∧
          r.HandsOver bytes (failure?.map Error.ofDecoder) ∧
          Source.ReadsOut (Input.ahead r) bytes
            (failure?.map fun cause => (Error.ofDecoder cause).toIo true) bytes.length := by
  intro data source origin provider plain ahead
  have unfailing : Source.Unfailing source := Scheduled.unfailing (by simp [source])
  have interrupted : Source.Unfailing (⟨data, [.interrupted]⟩ : Scheduled) :=
    Scheduled.unfailing (by simp)
  have serves' : Source.Serves origin data 1 :=
    (Scheduled.serves ⟨data, [.interrupted]⟩).passedOn Origin.passesOn_stream
  have unfailing' : Source.Unfailing origin := interrupted.passedOn Origin.passesOn_stream
  obtain ⟨payload, failure?, whole, blames, ways⟩ := decode_ways_agree source.serves unfailing
    (rfl : Files.openProvider {} provider = .ok origin) serves' unfailing'
  obtain ⟨-, onDemand, -⟩ := ways plain rfl
  obtain ⟨reader, -, threaded⟩ := ways ahead rfl
  exact ⟨source.serves, unfailing, rfl, serves', unfailing', payload, failure?, whole, blames,
    reader (by decide), onDemand rfl, threaded rfl (by decide)⟩

/-- A queue that is longer than any that can be allocated passes the checks. The empty stream is
    decoded at once and without a worker, but no reader can be opened. -/
theorem unallocatable_queue_panics :
    let options : ReaderOptions := { queueSize := 4611686018427387904 }
    let source : Scheduled := ⟨[], []⟩
    options.validate = .ok () ∧ decompress [] = .ok [] ∧
      (∃ decoder, Input.open {} (.stream source) { options with threads := .fixed 0 } =
          .done (.onDemand decoder) ∧
        ∃ last, Source.readOn (Input.onDemand decoder) [1] = ([], some .ended, last)) ∧
      Reader.open source options = .panicked ∧
      Input.open {} (.stream source) options = .panicked := by
  intro options source
  have nothing : verdictOn 0 [] = ⟨[], none, 0⟩ := verdictOn_of_nil (beginning_nil 0)
  have serves : Source.Serves (Origin.stream source) [] 0 :=
    source.serves.passedOn Origin.passesOn_stream
  have quiet : Source.Unfailing source := Scheduled.unfailing (by simp [source])
  have unfailing : Source.Unfailing (Origin.stream source) := quiet.passedOn Origin.passesOn_stream
  have told := Members.tells serves unfailing (show 0 < Input.fetchCapacity by decide)
  rw [nothing] at told
  refine ⟨rfl, ?_, ⟨_, rfl, ?_⟩, rfl, rfl⟩
  · rw [decompress_eq, nothing]
  · have buffered := (told.buffered (show 0 < defaultBlockSize by decide)).passedOn
      Input.passesOn_onDemand
    obtain ⟨stop, stopped, comes⟩ | ⟨-, -, few⟩ := buffered.readsOut [1]
    · have ended := stopped.trans (congrArg some comes.stop)
      exact ⟨_, Prod.ext (comes.complete nofun) (Prod.ext ended rfl)⟩
    · exact absurd few (by decide)

end ParallelGzip
