import ParallelGzip.Proofs.Deflate.Encode
import ParallelGzip.Proofs.Pipeline.Contents
import ParallelGzip.Proofs.Pipeline.Program
import ParallelGzip.Proofs.Stream.Unfailing

set_option autoImplicit false

/-! # The library's compressors

A compressor with the room that goes with the block size never fails on a block of a writer, and it
keeps no state, so what becomes of an entry does not depend on the entries before it: it is what
`Entry.render` says. A run of a writer with these compressors is calm if its sink is. -/

namespace ParallelGzip

/-- What the library's compressors make of an entry. -/
def Entry.render (level : Nat) : Entry → Rendered
  | block number data dictionary =>
    .block number ⟨Deflate.encode (Deflate.effort level) data (windowOf dictionary), crc32 data 0,
      data.length⟩
  | memberEnd next => .memberEnd next

namespace DeflateCompressor

variable {level blockSize : Nat}

/-- There is always room for the compressed form of a block. -/
theorem length_encode_lt {data : Bytes} (fits : data.length ≤ blockSize) (dictionary : Bytes) :
    (Deflate.encode (Deflate.effort level) data dictionary).length <
      compressBufferSize blockSize := by
  have short := Deflate.length_encode_le (Deflate.effort level) data dictionary
  rw [compressBufferSize]
  omega

theorem compress_eq {data : Bytes} (fits : data.length ≤ blockSize) (dictionary : Bytes) :
    BlockCompressor.compress (DeflateCompressor.mk level (compressBufferSize blockSize)) data
        dictionary =
      (.block ⟨Deflate.encode (Deflate.effort level) data (windowOf dictionary), crc32 data 0,
        data.length⟩, ⟨level, compressBufferSize blockSize⟩) := by
  simp only [BlockCompressor.compress, compress]
  rw [if_neg (Nat.not_le.2 (length_encode_lt fits (windowOf dictionary)))]

theorem compressEntry_eq {entry : Entry} (fits : entry.Fits blockSize) :
    compressEntry (DeflateCompressor.mk level (compressBufferSize blockSize)) entry =
      some (entry.render level, ⟨level, compressBufferSize blockSize⟩) := by
  cases entry with
  | block number data dictionary =>
    rw [compressEntry, compress_eq fits]
    rfl
  | memberEnd next => rfl

theorem compressEntries_eq {entries : List Entry} (fits : ∀ entry ∈ entries, entry.Fits blockSize) :
    compressEntries (DeflateCompressor.mk level (compressBufferSize blockSize)) entries =
      some (entries.map (Entry.render level), ⟨level, compressBufferSize blockSize⟩) := by
  induction entries with
  | nil => rfl
  | cons entry entries ih =>
    rw [compressEntries, compressEntry_eq (fits entry List.mem_cons_self)]
    dsimp only
    rw [ih fun entry hentry => fits entry (List.mem_cons_of_mem _ hentry)]
    rfl

/-- On whatever lane an entry is compressed, the same becomes of it. -/
theorem rendering_eq {n p : Nat} {entries : List Entry} (pos : 0 < n)
    (fits : ∀ entry ∈ entries, entry.Fits blockSize) :
    rendering ((List.range n).map fun _ =>
        DeflateCompressor.mk level (compressBufferSize blockSize)) entries p =
      (entries.map (Entry.render level))[p]? := by
  have turn : p % n < n := Nat.mod_lt p pos
  have fitsTurns : ∀ entry ∈ (turns n (p % n) entries).take (p / n + 1), entry.Fits blockSize := by
    intro entry hentry
    exact fits entry (mem_of_mem_turns (List.mem_of_mem_take hentry))
  rw [rendering]
  simp only [List.length_map, List.length_range, List.getElem?_map, List.getElem?_range turn,
    Option.map_some, compressEntries_eq fitsTurns]
  rw [List.getElem?_take, if_pos (Nat.lt_succ_self _), getElem?_turns pos]

end DeflateCompressor

/-- Nothing has gone wrong with the sink: whatever has gone wrong is about a block. -/
def History.SinkWorks {κ ω : Type} [BlockCompressor κ] [Sink ω] (h : History κ ω) : Prop :=
  ∀ mishap ∈ h.mishaps, mishap.number?.isSome = true

/-- What goes wrong with a compressor is about a block. -/
theorem Lane.number?_of_mishap? {κ : Type} [BlockCompressor κ] {lane : Lane κ} {mishap : Mishap}
    (mishap? : lane.mishap? = some mishap) : mishap.number?.isSome = true := by
  unfold Lane.mishap? at mishap?
  repeat' split at mishap?
  all_goals cases mishap?
  all_goals rfl

namespace Pipeline

section Unfailing

variable {κ ω : Type} [Sink ω] {good : ω → Prop} {s s' : Pipeline κ ω}

/-- Nothing goes wrong with a sink that never fails. -/
theorem sinkMishap?_of_unfailing (unfailing : Sink.Unfailing good) (works : good s.sink) :
    s.sinkMishap? = none := by
  unfold sinkMishap?
  split
  · next rest _ _ =>
    split
    · rfl
    · next some =>
      rcases unfailing.write works some with ⟨n, wrote⟩ | ⟨cause, interrupted⟩
      · simp only [wrote]
      · simp only [interrupted]
  · simp only [(unfailing.flush works).1]
  · rfl

theorem SequencerMove.unfailing (unfailing : Sink.Unfailing good) (works : good s.sink)
    (move : s.SequencerMove s') : good s'.sink := by
  cases move with
  | write phase some result | interrupted phase some result =>
    have stays := unfailing.stays works some
    rwa [result] at stays
  | flush phase result =>
    have stays := (unfailing.flush works).2
    rwa [result] at stays
  | fail mishap? =>
    rw [sinkMishap?_of_unfailing unfailing works] at mishap?
    cases mishap?
  | start phase going =>
    rw [beginWriting_eq]
    exact works
  | receive | leave | finish | advance | record | cancel | closeLane | exit => exact works

/-- A run on a sink that never fails leaves one, and nothing has gone wrong with it. -/
theorem Run.unfailing [BlockCompressor κ] {start : Pipeline κ ω} {h : History κ ω}
    (unfailing : Sink.Unfailing good) (works : good start.sink) (run : Run start h s) :
    good s.sink ∧ h.SinkWorks := by
  induction run with
  | start => exact ⟨works, by rintro mishap ⟨⟩⟩
  | @step h s s' party run step ih =>
    obtain ⟨before, calm⟩ := ih
    have mishaps := History.mishaps_concat h ⟨s, .step party, s'⟩
    rw [History.SinkWorks, mishaps]
    have later (now : ∀ mishap, (Moment.mk s (.step party) s').mishap? = some mishap →
        mishap.number?.isSome = true) : ∀ mishap ∈ h.mishaps
          ++ (Moment.mk s (.step party) s').mishap?.toList, mishap.number?.isSome = true := by
      intro mishap found
      rcases List.mem_append.1 found with found | found
      · exact calm mishap found
      · exact now mishap (Option.mem_toList.1 found)
    cases party with
    | owner =>
      refine ⟨?_, later nofun⟩
      rw [(move_of_ownerStep? step).frame.2.2.1]
      exact before
    | worker i =>
      refine ⟨?_, later ?_⟩
      · rw [(frame_of_workerStep? step).sink]
        exact before
      · intro mishap mishap?
        obtain ⟨lane, -, mishap?⟩ := Option.bind_eq_some_iff.1 mishap?
        exact Lane.number?_of_mishap? mishap?
    | sequencer =>
      refine ⟨(move_of_sequencerStep? step).unfailing unfailing before, later ?_⟩
      intro mishap mishap?
      cases (sinkMishap?_of_unfailing unfailing before).symm.trans mishap?
  | @request h s r run returned ih =>
    obtain ⟨before, calm⟩ := ih
    refine ⟨?_, ?_⟩
    · obtain ⟨phase, after⟩ := request_frame s r
      rw [after]
      exact before
    · rw [History.SinkWorks, History.mishaps_concat]
      intro mishap found
      exact calm mishap (by simpa [Moment.mishap?] using found)

end Unfailing

section Rendered

variable {κ ω : Type} [BlockCompressor κ] [Sink ω] {settings : Settings} {compressors : List κ}
  {sink : ω} {h : History κ ω} {s : Pipeline κ ω}

/-- If something becomes of every entry, nothing goes wrong with the compressors: whatever does is
    about the sink. -/
theorem Run.number?_eq_none_of_rendering
    (run : Run (Pipeline.new settings compressors sink) h s)
    (becomes : ∀ p, p < h.entries.length → rendering compressors h.entries p ≠ none) :
    ∀ mishap ∈ h.mishaps, mishap.number? = none := by
  intro mishap hmishap
  by_contra some
  obtain ⟨number, number?⟩ := Option.ne_none_iff_exists'.1 some
  obtain ⟨m, hm, mishap?⟩ := List.mem_filterMap.1 hmishap
  obtain ⟨p, data, dictionary, hp, none⟩ := run.of_workerMishap hm mishap? number?
  exact becomes p (List.getElem?_eq_some_iff.1 hp).1 none

/-- If nothing goes wrong with the sink either, a run is calm. -/
theorem Run.mishaps_eq_nil_of_rendering
    (run : Run (Pipeline.new settings compressors sink) h s) (works : h.SinkWorks)
    (becomes : ∀ p, p < h.entries.length → rendering compressors h.entries p ≠ none) :
    h.mishaps = [] := by
  refine List.eq_nil_iff_forall_not_mem.2 ?_
  intro mishap hmishap
  have about := works mishap hmishap
  rw [run.number?_eq_none_of_rendering becomes mishap hmishap] at about
  cases about

end Rendered

/-- The library's compressors, one for each lane. -/
def libraryCompressors (settings : Settings) (n : Nat) : List DeflateCompressor :=
  (List.range n).map fun _ => ⟨settings.level, compressBufferSize settings.blockSize⟩

section Library

variable {ω : Type} [Sink ω] {settings : Settings} {n : Nat} {sink : ω}
  {h : History DeflateCompressor ω} {s : Pipeline DeflateCompressor ω}

theorem libraryCompressors_ne_nil (pos : 0 < n) : libraryCompressors settings n ≠ [] := by
  intro none
  rw [libraryCompressors, List.map_eq_nil_iff, List.range_eq_nil] at none
  omega

/-- Something becomes of every entry with the library's compressors. -/
theorem Run.rendering_library_ne_none (pos : 0 < n)
    (run : Run (Pipeline.new settings (libraryCompressors settings n) sink) h s) :
    ∀ p, p < h.entries.length → rendering (libraryCompressors settings n) h.entries p ≠ none := by
  intro p live
  rw [libraryCompressors, DeflateCompressor.rendering_eq pos run.fits.2, List.getElem?_map,
    List.getElem?_eq_getElem live]
  exact Option.some_ne_none _

theorem Run.mishaps_eq_nil (pos : 0 < n)
    (run : Run (Pipeline.new settings (libraryCompressors settings n) sink) h s)
    (works : h.SinkWorks) : h.mishaps = [] :=
  run.mishaps_eq_nil_of_rendering works (run.rendering_library_ne_none pos)

theorem Run.performs_of_sinkWorks (pos : 0 < n)
    (run : Run (Pipeline.new settings (libraryCompressors settings n) sink) h s)
    (works : h.SinkWorks)
    (program : (h.requests.dropLast.any fun r => r.call.closes) = false) : s.Performs h :=
  run.performs (libraryCompressors_ne_nil pos) (run.mishaps_eq_nil pos works) program

end Library

end Pipeline

end ParallelGzip
