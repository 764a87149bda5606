import ParallelGzip.Output
import ParallelGzip.Proofs.Opening

set_option autoImplicit false

/-! # Refusals: settings out of range touch nothing

The settings are looked at in a fixed order, and what is reported is the first that is out of range.
Nothing else has happened then: no path has been looked at, nothing has been asked of a stream, and
no compressor has been made. An output without workers looks at its mode and its level only; the
threads are looked at by a writer, and never by an output, which has no writer without workers. -/

namespace ParallelGzip

/-! ## Settings -/

/-- What is looked at before anything is opened. -/
inductive Setting
  | mode
  | level
  | blockSize
  | queueSize
  | threads
  deriving DecidableEq, Repr

namespace Setting

/-- Whether a setting is in range. -/
def InRange (mode : OpenMode) (options : WriterOptions) : Setting → Prop
  | .mode => mode ≠ .read
  | level => options.level ≤ 9
  | blockSize => 0 < options.blockSize ∧ options.blockSize ≤ maxBlockSize
  | queueSize => 0 < options.queueSize
  | threads => options.threads ≠ .fixed 0

instance (mode : OpenMode) (options : WriterOptions) :
    (setting : Setting) → Decidable (setting.InRange mode options)
  | .mode => inferInstanceAs (Decidable (mode ≠ .read))
  | level => inferInstanceAs (Decidable (options.level ≤ 9))
  | blockSize => inferInstanceAs
      (Decidable (0 < options.blockSize ∧ options.blockSize ≤ maxBlockSize))
  | queueSize => inferInstanceAs (Decidable (0 < options.queueSize))
  | threads => inferInstanceAs (Decidable (options.threads ≠ .fixed 0))

/-- What is reported of a setting that is out of range. -/
def refusal (options : WriterOptions) : Setting → Error
  | mode => .invalidMode "Read cannot be used for writing"
  | level => .invalidLevel options.level
  | blockSize => .invalidBlockSize (if options.blockSize = 0 then "block size must be at least 1 byte"
      else s!"block size {options.blockSize} exceeds the maximum of {maxBlockSize}")
  | queueSize => .invalidBlockSize "queue size must be at least 1"
  | threads => .invalidThreads 0

/-- The settings that matter to a writer, in the order in which they are looked at. -/
def ofWriter : List Setting := [level, blockSize, queueSize, threads]

/-- The settings that matter to an output, in the order in which they are looked at. -/
def ofOutput (options : WriterOptions) : List Setting :=
  if options.threads = .fixed 0 then [mode, level] else [mode, level, blockSize, queueSize]

/-- The first of some settings that is out of range. -/
def firstBad? (mode : OpenMode) (options : WriterOptions) (settings : List Setting) :
    Option Setting :=
  settings.find? fun setting => ¬setting.InRange mode options

/-- What checks come to that report a setting if there is one to be reported. -/
def checked {α : Type} (options : WriterOptions) (value : α) : Option Setting → Except Error α
  | some setting => .error (setting.refusal options)
  | none => .ok value

theorem isConfiguration_refusal (options : WriterOptions) (setting : Setting) :
    (setting.refusal options).isConfiguration = true := by
  cases setting <;> rfl

/-! ## One check after the other -/

section Checks

variable {α β : Type} {mode : OpenMode} {options : WriterOptions} {setting : Setting}
  {settings : List Setting}

theorem firstBad?_cons_of_inRange (fine : setting.InRange mode options) :
    firstBad? mode options (setting :: settings) = firstBad? mode options settings :=
  List.find?_cons_of_neg (by simpa using fine)

theorem firstBad?_cons_of_not_inRange (bad : ¬setting.InRange mode options) :
    firstBad? mode options (setting :: settings) = some setting :=
  List.find?_cons_of_pos (by simpa using bad)

theorem checked_of_inRange (fine : setting.InRange mode options) (value : α) :
    checked options value (firstBad? mode options [setting]) = .ok value := by
  rw [firstBad?_cons_of_inRange fine]
  rfl

theorem checked_of_not_inRange (bad : ¬setting.InRange mode options) (value : α) :
    checked options value (firstBad? mode options [setting]) = .error (setting.refusal options) := by
  rw [firstBad?_cons_of_not_inRange bad]
  rfl

/-- One setting is checked, then the others. -/
theorem checked_cons (mode : OpenMode) (options : WriterOptions) (setting : Setting)
    (settings : List Setting) (value : α) (last : β) :
    (do
      let _ ← checked options value (firstBad? mode options [setting])
      checked options last (firstBad? mode options settings)) =
      checked options last (firstBad? mode options (setting :: settings)) := by
  by_cases fine : setting.InRange mode options
  · rw [checked_of_inRange fine, firstBad?_cons_of_inRange fine]
    rfl
  · rw [checked_of_not_inRange fine, firstBad?_cons_of_not_inRange fine]
    rfl

/-- What is found to be fine may be left out. -/
theorem checked_bind (options : WriterOptions) (value : α) (bad : Option Setting) :
    (do
      let _ ← checked options value bad
      pure ()) = checked options () bad := by
  cases bad <;> rfl

/-- If any of them is out of range, then there is a first. -/
theorem exists_firstBad? (matters : setting ∈ settings) (out : ¬setting.InRange mode options) :
    ∃ bad, firstBad? mode options settings = some bad := by
  rw [← Option.isSome_iff_exists, firstBad?, List.find?_isSome]
  exact ⟨setting, matters, by simpa using out⟩

end Checks

end Setting

open Setting (firstBad? checked checked_of_inRange checked_of_not_inRange checked_cons checked_bind)

variable {mode : OpenMode} {options : WriterOptions}

/-! ## The checks of an output and of a writer -/

theorem validateLevel_eq (mode : OpenMode) (options : WriterOptions) :
    validateLevel options.level =
      checked options options.level (firstBad? mode options [.level]) := by
  by_cases fine : Setting.level.InRange mode options
  · rw [checked_of_inRange fine]
    exact if_pos ⟨Nat.zero_le _, fine⟩
  · rw [checked_of_not_inRange fine]
    exact if_neg fun both => fine both.2

theorem validateBlockSize_eq (mode : OpenMode) (options : WriterOptions) :
    validateBlockSize options.blockSize =
      checked options options.blockSize (firstBad? mode options [.blockSize]) := by
  by_cases fine : Setting.blockSize.InRange mode options
  · rw [checked_of_inRange fine, validateBlockSize, if_neg (Nat.ne_of_gt fine.1),
      if_neg (Nat.not_lt.2 fine.2)]
  · rw [checked_of_not_inRange fine, validateBlockSize, Setting.refusal]
    by_cases empty : options.blockSize = 0
    · rw [if_pos empty, if_pos empty]
    · have large : maxBlockSize < options.blockSize :=
        Nat.not_le.1 fun small => fine ⟨Nat.pos_of_ne_zero empty, small⟩
      rw [if_neg empty, if_pos large, if_neg empty]

theorem validateQueueSize_eq (mode : OpenMode) (options : WriterOptions) :
    validateQueueSize options.queueSize =
      checked options options.queueSize (firstBad? mode options [.queueSize]) := by
  by_cases fine : Setting.queueSize.InRange mode options
  · rw [checked_of_inRange fine]
    exact if_neg (Nat.ne_of_gt fine)
  · rw [checked_of_not_inRange fine]
    exact if_pos (Nat.eq_zero_of_not_pos fine)

theorem Threads.resolve_eq_zero_iff {machine : Machine} {threads : Threads} :
    threads.resolve machine = 0 ↔ threads = .fixed 0 := by
  cases threads with
  | auto => simp [resolve, Nat.ne_of_gt machine.cores_pos]
  | fixed count => simp [resolve]

theorem validateWorkers_eq (machine : Machine) (mode : OpenMode) (options : WriterOptions) :
    validateWorkers (options.threads.resolve machine) =
      checked options (options.threads.resolve machine) (firstBad? mode options [.threads]) := by
  by_cases fine : Setting.threads.InRange mode options
  · rw [checked_of_inRange fine]
    exact if_neg (mt Threads.resolve_eq_zero_iff.1 fine)
  · rw [checked_of_not_inRange fine]
    exact if_pos (Threads.resolve_eq_zero_iff.2 (Decidable.not_not.1 fine))

/-- The checks of a writer report the first of its settings that is out of range. The mode is none
    of them. -/
theorem WriterOptions.validate_eq (machine : Machine) (mode : OpenMode) (options : WriterOptions) :
    options.validate machine =
      checked options (options.threads.resolve machine)
        (firstBad? mode options Setting.ofWriter) := by
  rw [WriterOptions.validate, validateLevel_eq mode, validateBlockSize_eq mode,
    validateQueueSize_eq mode, validateWorkers_eq machine mode, checked_cons, checked_cons,
    checked_cons]
  rfl

/-- A writer that has workers to run has nothing to say of their number. -/
theorem Setting.firstBad?_ofWriter (workers : options.threads ≠ .fixed 0) :
    firstBad? mode options ofWriter = firstBad? mode options [level, blockSize, queueSize] := by
  have split : ofWriter = [level, blockSize, queueSize] ++ [threads] := rfl
  have none : firstBad? mode options [threads] = none := firstBad?_cons_of_inRange workers
  rw [firstBad?, split, List.find?_append]
  exact (congrArg _ none).trans Option.or_none

/-- The checks of an output report the first of its settings that is out of range. -/
theorem Output.check_eq (machine : Machine) (mode : OpenMode) (options : WriterOptions) :
    Output.check machine mode options =
      checked options () (firstBad? mode options (Setting.ofOutput options)) := by
  have first : Output.check machine mode options = (do
      let _ ← checked options () (firstBad? mode options [.mode])
      if options.threads.isDisabled then
        let _ ← validateLevel options.level
      else
        let _ ← options.validate machine) := by
    cases mode <;> rfl
  rw [first, Setting.ofOutput, Threads.isDisabled]
  by_cases serial : options.threads = .fixed 0
  · rw [if_pos serial, if_pos (decide_eq_true serial), validateLevel_eq mode, checked_bind,
      checked_cons]
  · rw [if_neg serial, if_neg (by simpa using serial), WriterOptions.validate_eq machine mode,
      Setting.firstBad?_ofWriter serial, checked_bind, checked_cons]

/-! ## Opening -/

namespace Writer

variable {κ ω β : Type} [Sink ω]

/-- The state of a maker that has made a compressor for each of the first lanes. -/
def madeUpTo (make : β → Nat → κ × β) (state : β) : (lanes : Nat) → β
  | 0 => state
  | lane + 1 => (make (madeUpTo make state lane) lane).2

/-- The compressor that a maker makes for a lane when the lanes before have theirs. -/
def made (make : β → Nat → κ × β) (state : β) (lane : Nat) : κ :=
  (make (madeUpTo make state lane) lane).1

/-- Bytes of a compressor in the list of those that have been made. -/
def compressorSize : Nat := 16

/-- Open a writer whose compressors are made behind the header, one after the other, by a maker with
    a state of its own. None is made if there cannot be room for the list of them. -/
def openMaking (machine : Machine) (sink : ω) (options : WriterOptions) (make : β → Nat → κ × β)
    (state : β) : Opening κ ω × β :=
  match h : options.validate machine with
  | .error failure => (.failed failure sink, state)
  | .ok count =>
    match Sink.writeAll sink (Frame.header options.level) with
    | (.failed cause, sink) => (.failed (.ofIo cause) sink, state)
    | (.panicked, sink) => (.panicked sink, state)
    | (.done, sink) =>
      if canAllocate compressorSize count then
        let compressors := (List.range count).map (made make state)
        (if Pipeline.fits count options.queueSize then
          match machine.spawnFailure? count with
          | some failure => .failed failure sink
          | none => .opened ⟨.new (settings options count h) compressors sink, options.threads⟩
        else .panicked sink, madeUpTo make state count)
      else (.panicked sink, state)

variable {machine : Machine} {sink : ω} {options : WriterOptions} {n : Nat} {failure : Error}
  {make : β → Nat → κ × β} {state : β}

theorem openMaking_of_invalid (invalid : options.validate machine = .error failure) :
    openMaking machine sink options make state = (.failed failure sink, state) := by
  unfold openMaking
  split
  · next found =>
    rw [invalid] at found
    cases found
    rfl
  · next found =>
    rw [invalid] at found
    cases found

theorem openMaking_of_valid (valid : options.validate machine = .ok n) :
    openMaking machine sink options make state =
      match Sink.writeAll sink (Frame.header options.level) with
      | (.failed cause, sink) => (.failed (.ofIo cause) sink, state)
      | (.panicked, sink) => (.panicked sink, state)
      | (.done, sink) =>
        if canAllocate compressorSize n then
          (if Pipeline.fits n options.queueSize then
            match machine.spawnFailure? n with
            | some failure => .failed failure sink
            | none =>
              .opened ⟨.new (settings options n valid) ((List.range n).map (made make state)) sink,
                options.threads⟩
          else .panicked sink, madeUpTo make state n)
        else (.panicked sink, state) := by
  unfold openMaking
  split
  · next found =>
    rw [valid] at found
    cases found
  · next found =>
    rw [valid] at found
    cases found
    rfl

/-- Where the list of compressors is too long, so is that of the lanes. -/
theorem fits_eq_false_of_not_canAllocate {count : Nat} (queueSize : Nat)
    (long : ¬canAllocate compressorSize count = true) : Pipeline.fits count queueSize = false := by
  have lanes : canAllocate Pipeline.laneSize count = false := by
    rw [canAllocate_iff, compressorSize] at long
    rw [← Bool.not_eq_true, canAllocate_iff, Pipeline.laneSize]
    omega
  rw [Pipeline.fits, lanes, Bool.false_and]

/-- Whoever makes the compressors, the writer that is opened has those that are made. -/
theorem fst_openMaking (machine : Machine) (sink : ω) (options : WriterOptions)
    (make : β → Nat → κ × β) (state : β) :
    (openMaking machine sink options make state).1 =
      openWith machine sink options (made make state) := by
  cases checks : options.validate machine with
  | error failure => rw [openMaking_of_invalid checks, openWith_of_invalid checks]
  | ok n =>
    rw [openMaking_of_valid checks, openWith_of_valid checks]
    obtain ⟨answer, sink⟩ := Sink.writeAll sink (Frame.header options.level)
    cases answer with
    | failed | panicked => rfl
    | done =>
      by_cases short : canAllocate compressorSize n = true
      · exact congrArg Prod.fst (if_pos short)
      · have full := fits_eq_false_of_not_canAllocate options.queueSize short
        exact (congrArg Prod.fst (if_neg short)).trans (if_neg (Bool.eq_false_iff.1 full)).symm

end Writer

/-- Settings out of range touch nothing. If one of the settings that matter to an output is out of
    range, then opening it reports the first of them, as an error that blames the configuration,
    whatever the files are and wherever the output is to go; files and stream are as they were.
    The same holds of a writer, where no compressor has been made either, and of one with the
    compressors of the library, as long as the room for a compressed block counts as a size. -/
theorem refusals_touch_nothing {κ ω β : Type} [Sink ω] (machine : Machine) :
    (∀ (mode : OpenMode) (options : WriterOptions),
      ∀ setting ∈ Setting.ofOutput options, ¬setting.InRange mode options →
        ∃ bad, firstBad? mode options (Setting.ofOutput options) = some bad ∧
          (bad.refusal options).isConfiguration = true ∧
          ∀ (files : Files) (target : Target ω),
            Output.open machine files target mode options =
              .failed (bad.refusal options) target files) ∧
    ∀ (mode : OpenMode) (options : WriterOptions),
      ∀ setting ∈ Setting.ofWriter, ¬setting.InRange mode options →
        ∃ bad, firstBad? mode options Setting.ofWriter = some bad ∧
          (bad.refusal options).isConfiguration = true ∧
          (∀ (sink : ω) (make : β → Nat → κ × β) (state : β),
            Writer.openMaking machine sink options make state =
              (.failed (bad.refusal options) sink, state)) ∧
          (compressBufferSize options.blockSize ≤ maxSize →
            ∀ sink : ω, Writer.open machine sink options = .failed (bad.refusal options) sink) := by
  refine ⟨?_, ?_⟩
  · intro mode options setting matters out
    obtain ⟨bad, first⟩ := Setting.exists_firstBad? matters out
    refine ⟨bad, first, Setting.isConfiguration_refusal options bad, ?_⟩
    intro files target
    have refused := Output.check_eq machine mode options
    rw [first] at refused
    rw [Output.open, refused]
    rfl
  · intro mode options setting matters out
    obtain ⟨bad, first⟩ := Setting.exists_firstBad? matters out
    have refused := WriterOptions.validate_eq machine mode options
    rw [first] at refused
    refine ⟨bad, first, Setting.isConfiguration_refusal options bad, ?_, ?_⟩
    · intro sink make state
      exact Writer.openMaking_of_invalid refused
    · intro fits sink
      rw [Writer.open, compressBufferSize?, if_pos fits]
      exact Writer.openWith_of_invalid refused _

/-- There is room neither in a block nor in a queue, and the block is what is reported. A writer
    without workers is refused if nothing else is wrong; the maker counts the compressors it makes. -/
theorem refusals_touch_nothing_no_room :
    Output.open .ordinary ⟨[]⟩ (.path "log.gz" : Target (Array UInt8)) .write ⟨6, .fixed 2, 0, 0⟩ =
        .failed (.invalidBlockSize "block size must be at least 1 byte") (.path "log.gz") ⟨[]⟩ ∧
      Writer.openMaking .ordinary (#[] : Array UInt8) ⟨6, .fixed 0, 1, 1⟩
          (fun made _ => ((), made + 1)) 0 =
        (.failed (.invalidThreads 0) #[], 0) := by
  obtain ⟨output, writer⟩ :=
    refusals_touch_nothing (κ := Unit) (ω := Array UInt8) (β := Nat) .ordinary
  constructor
  · obtain ⟨bad, first, _, fails⟩ := output .write ⟨6, .fixed 2, 0, 0⟩ .queueSize (by decide)
      (by decide)
    obtain rfl : Setting.blockSize = bad := Option.some.inj first
    exact fails ⟨[]⟩ (.path "log.gz")
  · obtain ⟨bad, first, _, fails, _⟩ := writer .write ⟨6, .fixed 0, 1, 1⟩ .threads (by decide)
      (by decide)
    obtain rfl : Setting.threads = bad := Option.some.inj first
    exact fails #[] (fun made _ => ((), made + 1)) 0

end ParallelGzip
