import ParallelGzip.Proofs.Stream.RecordingSink
import ParallelGzip.Writer

set_option autoImplicit false

/-! # Opening: the pipeline a writer starts with

A writer that has been opened runs a new pipeline on a sink to which the header of the first member
has been written. Opening needs a machine that has room for all lanes and queues and starts all
threads; otherwise it panics or fails behind the header. -/

namespace ParallelGzip

/-! ## Options that pass the checks -/

/-- Options pass the checks exactly if each of them is in range. -/
theorem WriterOptions.validate_eq_ok_iff {options : WriterOptions} {machine : Machine} {n : Nat} :
    options.validate machine = .ok n ↔
      options.level ≤ maxLevel ∧ options.blockSize ≠ 0 ∧ options.blockSize ≤ maxBlockSize ∧
        options.queueSize ≠ 0 ∧ n ≠ 0 ∧ options.threads.resolve machine = n := by
  simp only [validate, bind, Except.bind, validateLevel, validateBlockSize, validateQueueSize,
    validateWorkers, minLevel, Nat.zero_le, true_and]
  by_cases level : options.level ≤ maxLevel
  · by_cases empty : options.blockSize = 0
    · simp [level, empty]
    · by_cases large : maxBlockSize < options.blockSize
      · simp only [level, empty, large, if_true, if_false]
        constructor
        · intro refused
          cases refused
        · rintro ⟨-, -, small, -⟩
          omega
      · by_cases queue : options.queueSize = 0
        · simp [level, empty, large, queue]
        · by_cases workers : options.threads.resolve machine = 0
          · simp only [level, empty, large, queue, workers, if_true, if_false]
            constructor
            · intro refused
              cases refused
            · rintro ⟨-, -, -, -, some, none⟩
              exact absurd none.symm some
          · simp only [level, empty, large, queue, workers, if_true, if_false, Except.ok.injEq]
            constructor
            · rintro rfl
              exact ⟨trivial, empty, by omega, queue, workers, rfl⟩
            · rintro ⟨-, -, -, -, -, rfl⟩
              rfl
  · simp [level]

/-- Any number of workers and any length of the queues pass. -/
theorem WriterOptions.validate_workers (machine : Machine) {workers queueSize : Nat}
    (some : workers ≠ 0) (room : queueSize ≠ 0) :
    ({ threads := .fixed workers, queueSize := queueSize } : WriterOptions).validate machine =
      .ok workers := by
  have level : defaultLevel ≤ maxLevel := by decide
  have blockSize : defaultBlockSize ≠ 0 ∧ defaultBlockSize ≤ maxBlockSize := by decide
  exact validate_eq_ok_iff.2 ⟨level, blockSize.1, blockSize.2, room, some, rfl⟩

theorem WriterOptions.validate_default (machine : Machine) :
    ({} : WriterOptions).validate machine = .ok 1 :=
  validate_workers machine Nat.one_ne_zero Nat.one_ne_zero

/-- The room for the compressed form of a block of any size that passes the checks fits a 32-bit
    counter. -/
theorem compressBufferSize_lt {blockSize : Nat} (small : blockSize ≤ maxBlockSize) :
    compressBufferSize blockSize < UInt32.size := by
  rw [compressBufferSize, UInt32.size]
  rw [maxBlockSize] at small
  omega

theorem compressBufferSize?_of_le {blockSize : Nat} (small : blockSize ≤ maxBlockSize) :
    compressBufferSize? blockSize = some (compressBufferSize blockSize) := by
  have fits := compressBufferSize_lt small
  rw [UInt32.size] at fits
  rw [compressBufferSize?, if_pos]
  rw [maxSize]
  omega

/-! ## Machines that can run a writer -/

theorem canAllocate_iff {placeSize count : Nat} :
    canAllocate placeSize count = true ↔ placeSize * count ≤ maxAllocation :=
  decide_eq_true_iff

/-- The largest thread number of a writer is that of its sequencer: all threads are started exactly
    if the machine refuses none up to it. -/
theorem Machine.spawnFailure?_eq_none_iff {machine : Machine} {count : Nat} :
    machine.spawnFailure? count = none ↔ ∀ thread ≤ count, machine.refusal? thread = none := by
  simp only [spawnFailure?, Option.or_eq_none_iff, List.findSome?_eq_none_iff, List.mem_range,
    Option.map_eq_none_iff]
  constructor
  · rintro ⟨workers, sequencer⟩ thread le
    rcases Nat.lt_or_eq_of_le le with lt | rfl
    · exact workers thread lt
    · exact sequencer
  · intro starts
    exact ⟨fun thread lt => starts thread (Nat.le_of_lt lt), starts count (Nat.le_refl count)⟩

/-- Whether a machine can run a writer with `count` workers and `queueSize` places in each queue:
    the lists of lanes and the queues are not too large to be asked for, and it starts the workers
    and the sequencer. -/
structure Machine.Hosts (machine : Machine) (count queueSize : Nat) : Prop where
  lanes : 24 * count ≤ maxAllocation
  queues : 56 * queueSize ≤ maxAllocation
  starts : ∀ thread ≤ count, machine.refusal? thread = none

/-- A machine that starts every thread runs every writer of a size that can be asked for. -/
theorem Machine.hosts_ordinary {count queueSize : Nat} (lanes : 24 * count ≤ maxAllocation)
    (queues : 56 * queueSize ≤ maxAllocation) : ordinary.Hosts count queueSize :=
  ⟨lanes, queues, fun _ _ => rfl⟩

theorem Machine.hosts_of_fits {machine : Machine} {count queueSize : Nat}
    (fits : Pipeline.fits count queueSize = true) (starts : machine.spawnFailure? count = none) :
    machine.Hosts count queueSize := by
  rw [Pipeline.fits, Bool.and_eq_true] at fits
  exact ⟨canAllocate_iff.1 fits.1, canAllocate_iff.1 fits.2,
    Machine.spawnFailure?_eq_none_iff.1 starts⟩

/-- With default settings there is one worker, and one place in each queue. -/
theorem Machine.hosts_default : ordinary.Hosts 1 1 := hosts_ordinary (by decide) (by decide)

/-- A machine that starts no more threads. -/
def Machine.exhausted : Machine :=
  { ordinary with refusal? := fun _ => some "Resource temporarily unavailable (os error 11)" }

theorem Machine.spawnFailure?_exhausted {count : Nat} (some : 0 < count) :
    exhausted.spawnFailure? count = .some (.thread
      "failed to spawn worker: Resource temporarily unavailable (os error 11)") := by
  obtain ⟨count, rfl⟩ := Nat.exists_eq_succ_of_ne_zero (Nat.ne_of_gt some)
  rw [spawnFailure?, List.range_succ_eq_map]
  rfl

theorem Machine.Hosts.fits {machine : Machine} {count queueSize : Nat}
    (hosts : machine.Hosts count queueSize) : Pipeline.fits count queueSize = true := by
  rw [Pipeline.fits, Bool.and_eq_true]
  exact ⟨canAllocate_iff.2 hosts.lanes, canAllocate_iff.2 hosts.queues⟩

namespace Writer

variable {κ ω : Type} [Sink ω] {machine : Machine} {sink sink' : ω} {options : WriterOptions}
  {compressor : Nat → κ} {n : Nat} {failure : Error}

/-- The settings of a writer whose options pass the checks. -/
def settings (options : WriterOptions) (n : Nat) (valid : options.validate machine = .ok n) :
    Settings where
  level := options.level
  blockSize := options.blockSize
  queueSize := options.queueSize
  blockSize_pos := (WriterOptions.pos_of_validate valid).1
  queueSize_pos := (WriterOptions.pos_of_validate valid).2.1

omit [Sink ω] in
/-- A writer has a worker. -/
theorem compressors_ne_nil (valid : options.validate machine = .ok n) (compressor : Nat → κ) :
    (List.range n).map compressor ≠ [] := by
  have workers := (WriterOptions.pos_of_validate valid).2.2
  intro none
  rw [List.map_eq_nil_iff, List.range_eq_nil] at none
  omega

/-- Options that do not pass the checks leave the sink as it is. -/
theorem openWith_of_invalid (invalid : options.validate machine = .error failure)
    (compressor : Nat → κ) : openWith machine sink options compressor = .failed failure sink := by
  unfold openWith
  split
  · next found =>
    rw [invalid] at found
    cases found
    rfl
  · next found =>
    rw [invalid] at found
    cases found

/-- What becomes of options that pass the checks is up to the header and the machine. -/
theorem openWith_of_valid (valid : options.validate machine = .ok n) (compressor : Nat → κ) :
    openWith machine sink options compressor =
      match Sink.writeAll sink (Frame.header options.level) with
      | (.failed cause, sink) => .failed (.ofIo cause) sink
      | (.panicked, sink) => .panicked sink
      | (.done, sink) =>
        if Pipeline.fits n options.queueSize then
          match machine.spawnFailure? n with
          | some failure => .failed failure sink
          | none =>
            .opened ⟨.new (settings options n valid) ((List.range n).map compressor) sink,
              options.threads⟩
        else .panicked sink := by
  unfold openWith
  split
  · next found =>
    rw [valid] at found
    cases found
  · next found =>
    rw [valid] at found
    cases found
    rfl

/-- Opening succeeds if the options pass the checks, the header can be written, and the machine can
    run the writer. -/
theorem openWith_eq_opened (valid : options.validate machine = .ok n)
    (header : Sink.writeAll sink (Frame.header options.level) = (.done, sink'))
    (hosts : machine.Hosts n options.queueSize) :
    openWith machine sink options compressor = .opened ⟨.new (settings options n valid)
      ((List.range n).map compressor) sink', options.threads⟩ := by
  have starts : machine.spawnFailure? n = none :=
    Machine.spawnFailure?_eq_none_iff.2 hosts.starts
  rw [openWith_of_valid valid, header]
  simp only [hosts.fits, if_true, starts]

/-- Opening panics behind the header if there cannot be room for the lanes or the queues. -/
theorem openWith_eq_panicked (valid : options.validate machine = .ok n)
    (header : Sink.writeAll sink (Frame.header options.level) = (.done, sink'))
    (full : Pipeline.fits n options.queueSize = false) :
    openWith machine sink options compressor = .panicked sink' := by
  rw [openWith_of_valid valid, header]
  simp only [full, Bool.false_eq_true, if_false]

/-- Opening fails behind the header if the machine does not start a thread. -/
theorem openWith_eq_failed (valid : options.validate machine = .ok n)
    (header : Sink.writeAll sink (Frame.header options.level) = (.done, sink'))
    (fits : Pipeline.fits n options.queueSize = true)
    (refused : machine.spawnFailure? n = some failure) :
    openWith machine sink options compressor = .failed failure sink' := by
  rw [openWith_of_valid valid, header]
  simp only [fits, if_true, refused]

/-- What is known of a writer that has been opened. -/
theorem pipeline_of_openWith {w : Writer κ ω} (valid : options.validate machine = .ok n)
    (opened : openWith machine sink options compressor = .opened w) :
    ∃ sink', Sink.writeAll sink (Frame.header options.level) = (.done, sink') ∧
      w.pipeline = .new (settings options n valid) ((List.range n).map compressor) sink' := by
  rw [openWith_of_valid valid] at opened
  split at opened
  · cases opened
  · cases opened
  · next sink' header =>
    split at opened
    · split at opened
      · cases opened
      · cases opened
        exact ⟨sink', header, rfl⟩
    · cases opened

/-- Only options that pass the checks open a writer. -/
theorem exists_validate_of_openWith {w : Writer κ ω}
    (opened : openWith machine sink options compressor = .opened w) :
    ∃ n, options.validate machine = .ok n := by
  cases checks : options.validate machine with
  | error failure =>
    rw [openWith_of_invalid checks] at opened
    cases opened
  | ok n => exact ⟨n, rfl⟩

end Writer

/-! ## A sink in memory -/

theorem writeAll_array (sink : Array UInt8) (bytes : Bytes) :
    Sink.writeAll sink bytes = (.done, sink ++ bytes) := by
  by_cases empty : bytes = []
  · rw [Sink.writeAll, if_pos empty, empty]
    simp
  · exact Sink.writeAll_of_wrote empty rfl

/-- Opening in memory succeeds if the options pass the checks and the machine can run the writer. -/
theorem Writer.openWith_array {κ : Type} {machine : Machine} {options : WriterOptions} {n : Nat}
    (compressor : Nat → κ) (valid : options.validate machine = .ok n)
    (hosts : machine.Hosts n options.queueSize) :
    openWith machine (#[] : Array UInt8) options compressor =
      .opened ⟨.new (settings options n valid) ((List.range n).map compressor)
        ((#[] : Array UInt8) ++ Frame.header options.level), options.threads⟩ :=
  openWith_eq_opened valid (writeAll_array #[] _) hosts

end ParallelGzip
