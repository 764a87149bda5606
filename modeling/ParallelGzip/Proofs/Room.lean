import ParallelGzip.Proofs.Contract
import ParallelGzip.Proofs.Pipeline.Exits

set_option autoImplicit false

/-! # There is always room

The room for the compressed form of a block goes with the block size: a tenth more than it, and at
least 500 bytes. What a compressor of the library puts out is never longer than the block stored in
pieces, so it always fits, and the room counts as a number of 32 bits for every block size that
passes the checks. So in no run of a writer with these compressors does a block fail, and a call
that reports too little room passes on what the sink has said. -/

namespace ParallelGzip

variable {ω : Type} [Sink ω]

/-- An I/O failure that comes out as too little room carries this error. -/
theorem Error.eq_carrying_of_ofIo {cause : IoError} {number capacity : Nat}
    (passes : Error.ofIo cause = .bufferOverflow number capacity) :
    ∃ kind, cause = .carrying kind (.bufferOverflow number capacity) := by
  cases cause with
  | carrying kind error =>
    obtain rfl : error = .bufferOverflow number capacity := passes
    exact ⟨kind, rfl⟩
  | _ => cases passes

/-- Only a sink can report too little room where no compressor does. -/
theorem Mishap.exists_sinkFailed {mishap : Mishap} {number capacity : Nat}
    (about : mishap.number? = none) (reports : mishap.failure = .bufferOverflow number capacity) :
    ∃ index kind, mishap = .sinkFailed index (.carrying kind (.bufferOverflow number capacity)) := by
  cases mishap with
  | blockFailed | blockPanicked => cases about
  | sinkPanicked => cases reports
  | sinkFailed index cause =>
    obtain ⟨kind, rfl⟩ := Error.eq_carrying_of_ofIo reports
    exact ⟨index, kind, rfl⟩

namespace Writer

/-- There is always room. For every block size that passes the checks the room for compressed forms
    fits a 32-bit counter, and a compressor of any level that has this room makes a block of
    whatever is not longer than the block size, with whatever dictionary and whatever it has been
    given before. So whatever goes wrong in a run of a writer with these compressors goes wrong with
    its sink, and a call that reports too little room passes on an error of the sink. -/
theorem never_overflows :
    (∀ blockSize ≤ maxBlockSize,
      compressBufferSize? blockSize = some (compressBufferSize blockSize) ∧
      compressBufferSize blockSize < UInt32.size ∧
      ∀ (level : Nat) (jobs : List (Bytes × Bytes)) (raw dictionary : Bytes),
        raw.length ≤ blockSize → ∃ data : Bytes,
          data.length ≤ raw.length + 5 * ((raw.length + 16383) / 16384) + 16 ∧
          data.length < compressBufferSize blockSize ∧
          (BlockCompressor.compress (BlockCompressor.feed
              (DeflateCompressor.mk level (compressBufferSize blockSize)) jobs) raw dictionary).1 =
            .block ⟨data, crc32 raw 0, raw.length⟩) ∧
    ∀ (machine : Machine) (sink : ω) (options : WriterOptions) (w : Writer DeflateCompressor ω)
      (h : History DeflateCompressor ω) (s : Pipeline DeflateCompressor ω),
      Writer.open machine sink options = .opened w → w.pipeline.Run h s →
        (∀ mishap ∈ h.mishaps, mishap.number? = none) ∧
        ∀ m ∈ h, ∀ number capacity, m.outcome? = some (.error (.bufferOverflow number capacity)) →
          ∃ index kind, .sinkFailed index (.carrying kind (.bufferOverflow number capacity)) ∈
            h.mishaps := by
  constructor
  · intro blockSize small
    refine ⟨compressBufferSize?_of_le small, compressBufferSize_lt small, ?_⟩
    intro level jobs raw dictionary fits
    have short := Deflate.length_encode_le (Deflate.effort level) raw (windowOf dictionary)
    exact ⟨_, by omega, DeflateCompressor.length_encode_lt fits (windowOf dictionary),
      DeflateCompressor.compress_feed_of_le fits jobs dictionary⟩
  · intro machine sink options w h s opened run
    obtain ⟨n, valid, sink', -, start⟩ := pipeline_of_open opened
    rw [start] at run
    have pos := (WriterOptions.pos_of_validate valid).2.2
    have about := run.number?_eq_none_of_rendering (run.rendering_library_ne_none pos)
    refine ⟨about, ?_⟩
    intro m hm number capacity outcome?
    obtain ⟨-, -, -, closed⟩ | ⟨mishap, hmishap, reports⟩ :=
      run.exists_mishap_of_error (Pipeline.libraryCompressors_ne_nil pos) hm outcome?
    · cases closed
    · obtain ⟨index, kind, rfl⟩ := mishap.exists_sinkFailed (about mishap hmishap) reports
      exact ⟨index, kind, hmishap⟩

/-- The largest block size with a block of one byte, and a run of a writer in memory. -/
theorem never_overflows_largest :
    (∃ data : Bytes, data.length ≤ 22 ∧
      (BlockCompressor.compress (BlockCompressor.feed
          (DeflateCompressor.mk 9 (compressBufferSize maxBlockSize)) [([7, 7], [])]) [7] [7, 7]).1 =
        .block ⟨data, crc32 [7] 0, List.length ([7] : Bytes)⟩) ∧
    ∃ (w : Writer DeflateCompressor (Array UInt8)) (h : History DeflateCompressor (Array UInt8))
      (s : Pipeline DeflateCompressor (Array UInt8)),
      Writer.open .ordinary #[] {} = .opened w ∧ w.pipeline.Run h s ∧
      h.requests = Request.program [[[7], [7, 7]]] [[8]] ∧
      ∀ mishap ∈ h.mishaps, mishap.number? = none := by
  obtain ⟨blocks, runs⟩ := @never_overflows (Array UInt8) _
  constructor
  · obtain ⟨-, -, made⟩ := blocks maxBlockSize (Nat.le_refl _)
    obtain ⟨data, short, -, result⟩ := made 9 [([7, 7], [])] [7] [7, 7] (by decide)
    exact ⟨data, short, result⟩
  · have valid := WriterOptions.validate_default .ordinary
    have opened := open_eq_opened valid (writeAll_array #[] (Frame.header 6))
      Machine.hosts_default
    obtain ⟨h, s, run, requests, -⟩ :=
      Pipeline.exists_run_program Nat.one_pos (settings {} 1 valid) _ [[[7], [7, 7]]] [[8]]
    exact ⟨_, h, s, opened, run, requests, (runs _ _ _ _ h s opened run).1⟩

end Writer

end ParallelGzip
