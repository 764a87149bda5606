import ParallelGzip.Compressor.Scripted
import ParallelGzip.Proofs.Opening
import ParallelGzip.Proofs.Pipeline.Order
import ParallelGzip.Proofs.Pipeline.Replay

set_option autoImplicit false

/-! # Contents: what a writer's sink holds

A block goes into the sink as its compressed data, the end of a member as what `Frame.memberEnd`
makes of checksum and length of the blocks since the end before. `Pipeline.contents_eq` says that
at every moment of every run the sink of a new writer holds the header it was opened with, the
entries it is done with, and perhaps the beginning of the next entry; what comes before and behind
an entry that a compressor failed on does not depend on the order of the steps. -/

namespace ParallelGzip

variable {κ ω : Type}

/-! ## From entries to bytes -/

/-- Checksum and length of the blocks of a member so far. -/
structure Tally where
  crc : UInt32
  size : Nat

namespace Tally

/-- A member without blocks. -/
def zero : Tally := ⟨0, 0⟩

/-- Go on behind an entry. -/
def add (t : Tally) : Rendered → Tally
  | .block _ compressed =>
    ⟨Crc32.combine t.crc compressed.crc compressed.length, t.size + compressed.length⟩
  | .memberEnd _ => zero

/-- The bytes of an entry. -/
def bytes (t : Tally) : Rendered → Bytes
  | .block _ compressed => compressed.data
  | .memberEnd next => Frame.memberEnd t.crc t.size next

/-- Go on behind some entries. -/
def addAll (t : Tally) (entries : List Rendered) : Tally := entries.foldl add t

/-- The bytes of some entries. -/
def stitch (t : Tally) : List Rendered → Bytes
  | [] => []
  | entry :: entries => t.bytes entry ++ (t.add entry).stitch entries

theorem addAll_append_singleton (t : Tally) (entries : List Rendered) (entry : Rendered) :
    t.addAll (entries ++ [entry]) = (t.addAll entries).add entry := by
  rw [addAll, List.foldl_append, List.foldl_cons, List.foldl_nil]
  rfl

theorem stitch_append (t : Tally) (first second : List Rendered) :
    t.stitch (first ++ second) = t.stitch first ++ (t.addAll first).stitch second := by
  induction first generalizing t with
  | nil => rfl
  | cons entry first ih =>
    rw [List.cons_append, stitch, stitch, ih, List.append_assoc]
    rfl

theorem stitch_append_singleton (t : Tally) (entries : List Rendered) (entry : Rendered) :
    t.stitch (entries ++ [entry]) = t.stitch entries ++ (t.addAll entries).bytes entry := by
  rw [stitch_append, stitch, stitch, List.append_nil]

theorem stitch_isPrefix (t : Tally) {first second : List Rendered} (front : first <+: second) :
    t.stitch first <+: t.stitch second := by
  obtain ⟨later, rfl⟩ := front
  rw [stitch_append]
  exact List.prefix_append _ _

/-- With a part of the next entry they are a beginning of what comes with all of it. -/
theorem stitch_part_isPrefix {t : Tally} {entries : List Rendered} {k : Nat} {part : Bytes}
    (next : part = [] ∨ ∃ entry, entries[k]? = some entry ∧
      part <+: (t.addAll (entries.take k)).bytes entry) :
    t.stitch (entries.take k) ++ part <+: t.stitch (entries.take (k + 1)) := by
  rcases next with rfl | ⟨entry, found, isPrefix⟩
  · rw [List.append_nil]
    exact t.stitch_isPrefix (List.take_prefix_take_left (Nat.le_succ k))
  · rw [List.take_add_one, found, Option.toList_some, stitch_append_singleton]
    exact (List.prefix_append_right_inj _).2 isPrefix

/-- How many entries there are in front of a part shows in how many bytes there are. -/
theorem eq_of_length_lt {t : Tally} {entries : List Rendered} {k n : Nat} {part : Bytes}
    (next : part = [] ∨ ∃ entry, entries[k]? = some entry ∧
      part <+: (t.addAll (entries.take k)).bytes entry)
    (more : (t.stitch (entries.take n)).length < (t.stitch (entries.take k) ++ part).length)
    (less : (t.stitch (entries.take k) ++ part).length < (t.stitch (entries.take (n + 1))).length) :
    k = n := by
  rcases Nat.lt_trichotomy k n with fewer | same | further
  · have begins := (stitch_part_isPrefix next).trans
      (t.stitch_isPrefix (List.take_prefix_take_left fewer))
    exact absurd begins.length_le (Nat.not_le_of_lt more)
  · exact same
  · have begins : entries.take (n + 1) <+: entries.take k := List.take_prefix_take_left further
    have within := (t.stitch_isPrefix begins).length_le
    rw [List.length_append] at less
    omega

end Tally

/-- How many entries a sequencer at entry `index` is done with, as far as its phase tells. -/
def SequencerPhase.Wrote (phase : SequencerPhase) (index count : Nat) : Prop :=
  match phase with
  | .receiving | .received _ | .writing _ _ => count = index
  | .flushing | .advancing => count = index + 1
  | _ => index ≤ count

theorem SequencerPhase.Wrote.le {phase : SequencerPhase} {index count : Nat}
    (wrote : phase.Wrote index count) : index ≤ count := by
  unfold Wrote at wrote
  split at wrote <;> omega

namespace Pipeline

/-- The tally of the sequencer. -/
def tally (s : Pipeline κ ω) : Tally := ⟨s.sequencer.crc, s.sequencer.size⟩

theorem beginWriting_eq (s : Pipeline κ ω) (rendered : Rendered) :
    s.beginWriting rendered = { s with sequencer := { s.sequencer with
      phase := .writing (s.tally.bytes rendered)
        (match rendered with | .block _ _ => false | .memberEnd _ => true)
      crc := (s.tally.add rendered).crc
      size := (s.tally.add rendered).size } } := by
  cases rendered <;> rfl

/-! ## The invariant of the sequencer -/

/-- How the entries the sequencer has `done`, the one it has taken beyond these (`later`), and the
    `part` of it that is in the sink go with what it is about to do. -/
def Stands (s : Pipeline κ ω) (done later : List Rendered) (part : Bytes) : Prop :=
  match s.sequencer.phase with
  | .receiving => later = [] ∧ part = [] ∧ s.tally = Tally.zero.addAll done
  | .received entry => later = [entry] ∧ part = [] ∧ s.tally = Tally.zero.addAll done
  | .writing rest _ => ∃ entry, later = [entry] ∧
      (Tally.zero.addAll done).bytes entry = part ++ rest ∧
      s.tally = (Tally.zero.addAll done).add entry
  | .flushing => later = [] ∧ part = [] ∧ s.tally = Tally.zero.addAll done
  | .advancing => later = [] ∧ part = [] ∧ s.tally = Tally.zero.addAll done
  | _ => part = [] ∨ ∃ entry, later = [entry] ∧ part <+: (Tally.zero.addAll done).bytes entry

/-- A sink that held `base` before the sequencer took the entries `taken`. -/
def Holds [Sink ω] [RecordingSink ω] (base : Bytes) (taken : List Rendered) (s : Pipeline κ ω) :
    Prop :=
  ∃ done later part, taken = done ++ later ∧
    RecordingSink.contents s.sink = base ++ Tally.zero.stitch done ++ part ∧
    s.Stands done later part ∧ s.sequencer.phase.Wrote s.sequencer.index done.length

variable {base : Bytes} {taken : List Rendered} {s s' : Pipeline κ ω}

theorem Stands.part {done later : List Rendered} {part : Bytes}
    (stands : s.Stands done later part) :
    part = [] ∨ ∃ entry, later = [entry] ∧ part <+: (Tally.zero.addAll done).bytes entry := by
  unfold Stands at stands
  split at stands
  · exact .inl stands.2.1
  · exact .inl stands.2.1
  · next rest _ _ =>
    obtain ⟨entry, hlater, hbytes, -⟩ := stands
    exact .inr ⟨entry, hlater, rest, hbytes.symm⟩
  · exact .inl stands.2.1
  · exact .inl stands.2.1
  · exact stands

/-- What a mishap leaves in the sink is the beginning of what the sequencer was writing. -/
theorem Stands.nextSink [Sink ω] [RecordingSink ω] {done later : List Rendered} {part : Bytes}
    {mishap : Mishap} (stands : s.Stands done later part) (mishap? : s.sinkMishap? = some mishap) :
    ∃ more, RecordingSink.contents s.nextSink = RecordingSink.contents s.sink ++ more ∧
      (part ++ more = [] ∨
        ∃ entry, later = [entry] ∧ part ++ more <+: (Tally.zero.addAll done).bytes entry) := by
  unfold sinkMishap? at mishap?
  unfold Pipeline.nextSink
  split at mishap?
  · next rest thenFlush phase =>
    rw [Stands, phase] at stands
    obtain ⟨entry, hlater, hbytes, -⟩ := stands
    obtain ⟨more, ⟨behind, hmore⟩, hcontents⟩ :=
      RecordingSink.exists_contents_write s.sink rest
    refine ⟨more, hcontents, .inr ⟨entry, hlater, behind, ?_⟩⟩
    rw [hbytes, List.append_assoc, hmore]
  · next phase =>
    rw [Stands, phase] at stands
    exact ⟨[], by rw [RecordingSink.contents_flush, List.append_nil],
      .inl (by rw [stands.2.1, List.append_nil])⟩
  · cases mishap?

theorem Holds.move [Sink ω] [RecordingSink ω] (holds : s.Holds base taken)
    (move : s.SequencerMove s') :
    s'.Holds base (taken ++ (Moment.mk s (.step .sequencer) s').taken?.toList) := by
  obtain ⟨done, later, part, htaken, hsink, stands, wrote⟩ := holds
  cases move with
  | @receive lane rendered rest phase turn outbox =>
    rw [Stands, phase] at stands
    rw [phase] at wrote
    obtain ⟨rfl, rfl, htally⟩ := stands
    refine ⟨done, [rendered], [], ?_, hsink, ⟨rfl, rfl, htally⟩, wrote⟩
    rw [htaken, List.append_nil]
    rfl
  | leave leaves =>
    refine ⟨done, later, part, ?_, hsink, ?_, wrote.le⟩
    · rw [htaken]
      exact List.append_nil _
    · cases leaves with
      | abandoned lane phase =>
        rw [Stands, phase] at stands
        exact .inl stands.2.1
      | told rendered phase =>
        rw [Stands, phase] at stands
        exact .inl stands.2.1
  | @start rendered phase going =>
    rw [Stands, phase] at stands
    rw [phase] at wrote
    obtain ⟨rfl, rfl, htally⟩ := stands
    rw [beginWriting_eq]
    refine ⟨done, [rendered], [], ?_, hsink, ⟨rendered, rfl, ?_, ?_⟩, wrote⟩
    · rw [htaken]
      exact List.append_nil _
    · rw [List.nil_append, htally]
    · rw [← htally]
      rfl
  | @finish thenFlush phase =>
    rw [Stands, phase] at stands
    have count : done.length = s.sequencer.index := by rwa [phase] at wrote
    obtain ⟨entry, rfl, hbytes, htally⟩ := stands
    rw [List.append_nil] at hbytes
    -- nothing is left to be written of the entry, so it counts as done
    have hdone : s.tally = Tally.zero.addAll (done ++ [entry]) := by
      rw [Tally.addAll_append_singleton, htally]
    refine ⟨done ++ [entry], [], [], ?_, ?_, ?_, ?_⟩
    · rw [htaken, List.append_nil]
      cases thenFlush <;> exact List.append_nil _
    · rw [hsink, Tally.stitch_append_singleton, hbytes, List.append_nil, List.append_assoc]
    · cases thenFlush <;> exact ⟨rfl, rfl, hdone⟩
    · rw [List.length_append, count]
      cases thenFlush <;> rfl
  | @write rest thenFlush n sink phase nonempty result =>
    rw [Stands, phase] at stands
    rw [phase] at wrote
    obtain ⟨entry, hlater, hbytes, htally⟩ := stands
    refine ⟨done, later, part ++ rest.take (n + 1), ?_, ?_, ⟨entry, hlater, ?_, htally⟩, wrote⟩
    · rw [htaken]
      exact List.append_nil _
    · simp only [RecordingSink.contents_of_wrote result, hsink, List.append_assoc]
    · rw [hbytes, List.append_assoc, List.take_append_drop]
  | @interrupted rest thenFlush cause sink phase nonempty result =>
    refine ⟨done, later, part, ?_, ?_, ?_, wrote⟩
    · rw [htaken]
      simp only [Moment.taken?, phase]
      exact List.append_nil _
    · rw [← hsink]
      exact RecordingSink.contents_of_interrupted result
    · rw [Stands, phase] at stands ⊢
      exact stands
  | @flush sink phase result =>
    rw [Stands, phase] at stands
    rw [phase] at wrote
    obtain ⟨rfl, rfl, htally⟩ := stands
    refine ⟨done, [], [], ?_, ?_, ⟨rfl, rfl, htally⟩, wrote⟩
    · rw [htaken]
      exact List.append_nil _
    · rw [← hsink, ← RecordingSink.contents_flush s.sink, result]
  | fail mishap? =>
    obtain ⟨more, hmore, hpart⟩ := stands.nextSink mishap?
    refine ⟨done, later, part ++ more, ?_, ?_, hpart, wrote.le⟩
    · rw [htaken]
      exact List.append_nil _
    · simp only [hmore, hsink, List.append_assoc]
  | advance phase =>
    rw [Stands, phase] at stands
    rw [phase] at wrote
    refine ⟨done, later, part, ?_, hsink, stands, wrote⟩
    rw [htaken]
    exact List.append_nil _
  | record phase | cancel phase | closeLane phase | exit phase =>
    rw [Stands, phase] at stands
    refine ⟨done, later, part, ?_, hsink, stands, wrote.le⟩
    rw [htaken]
    exact List.append_nil _

/-- What does not touch sequencer and sink does not touch what the sink holds. -/
theorem Holds.of_eq [Sink ω] [RecordingSink ω] (holds : s.Holds base taken)
    (sequencer : s'.sequencer = s.sequencer) (sink : s'.sink = s.sink) : s'.Holds base taken := by
  obtain ⟨done, later, part, htaken, hsink, stands, wrote⟩ := holds
  refine ⟨done, later, part, htaken, ?_, ?_, ?_⟩
  · rw [sink, hsink]
  · unfold Stands tally at stands ⊢
    rw [sequencer]
    exact stands
  · rw [sequencer]
    exact wrote

theorem Run.holds [BlockCompressor κ] [Sink ω] [RecordingSink ω] {settings : Settings}
    {compressors : List κ} {sink : ω} {h : History κ ω}
    (run : Run (Pipeline.new settings compressors sink) h s) :
    s.Holds (RecordingSink.contents sink) h.taken := by
  induction run with
  | start =>
    refine ⟨[], [], [], rfl, ?_, ⟨rfl, rfl, rfl⟩, rfl⟩
    simp only [Pipeline.new, Tally.stitch, List.append_nil]
  | @step h s s' party _ step ih =>
    cases party with
    | owner =>
      obtain ⟨-, hsequencer, hsink, -⟩ := (move_of_ownerStep? step).frame
      rw [History.taken_concat_of_none h rfl]
      exact ih.of_eq hsequencer hsink
    | worker i =>
      have frame := frame_of_workerStep? step
      rw [History.taken_concat_of_none h rfl]
      exact ih.of_eq frame.sequencer frame.sink
    | sequencer =>
      rw [History.taken_concat]
      exact ih.move (move_of_sequencerStep? step)
  | @request h s r _ _ ih =>
    obtain ⟨phase, after⟩ := request_frame s r
    rw [History.taken_concat_of_none h rfl]
    refine ih.of_eq ?_ ?_
    · rw [after]
    · rw [after]

/-- At every moment the sink holds, behind what it held at first, the entries that are done and
    perhaps a part of the next one; nothing of an entry that its compressor fails on, and nothing
    behind it. -/
theorem Run.contents_eq [BlockCompressor κ] [Sink ω] [RecordingSink ω] {settings : Settings}
    {compressors : List κ} {sink : ω} {h : History κ ω} (nonempty : compressors ≠ [])
    (run : Run (Pipeline.new settings compressors sink) h s) :
    ∃ (made : List Rendered) (part : Bytes),
      made.length ≤ h.entries.length ∧
      (∀ p, p < made.length → rendering compressors h.entries p = made[p]?) ∧
      RecordingSink.contents s.sink =
        RecordingSink.contents sink ++ Tally.zero.stitch made ++ part ∧
      (part = [] ∨ ∃ next, rendering compressors h.entries made.length = some next ∧
        part <+: (Tally.zero.addAll made).bytes next) ∧
      ∀ p, rendering compressors h.entries p = none →
        made.length ≤ p ∧ (made.length = p → part = []) := by
  obtain ⟨made, later, part, htaken, hsink, stands, -⟩ := run.holds
  have ordered := run.ordered
  have hmade : ∀ p, p < made.length → rendering compressors h.entries p = made[p]? := by
    intro p hp
    rw [List.getElem?_eq_getElem hp]
    refine ordered.rendering_of_taken nonempty ?_
    rw [htaken, List.getElem?_append_left hp, List.getElem?_eq_getElem hp]
  have hpart : part = [] ∨ ∃ next, rendering compressors h.entries made.length = some next ∧
      part <+: (Tally.zero.addAll made).bytes next := by
    rcases stands.part with rfl | ⟨next, rfl, hnext⟩
    · exact .inl rfl
    · refine .inr ⟨next, ordered.rendering_of_taken nonempty ?_, hnext⟩
      rw [htaken, List.getElem?_concat_length]
  refine ⟨made, part, ?_, hmade, hsink, hpart, ?_⟩
  -- entries that were not submitted or that fail have no rendering, and all that were made have
  · by_contra hlt
    have hlast := hmade h.entries.length (by omega)
    rw [List.getElem?_eq_getElem (by omega)] at hlast
    exact Nat.lt_irrefl _ (lt_length_of_rendering hlast)
  · intro p hnone
    constructor
    · by_contra hlt
      have hp := hmade p (by omega)
      rw [hnone, List.getElem?_eq_getElem (by omega)] at hp
      cases hp
    · rintro rfl
      rcases hpart with empty | ⟨next, hnext, -⟩
      · exact empty
      · rw [hnone] at hnext
        cases hnext

/-- A sequencer that has counted all the entries has written all of them. -/
theorem Run.contents_eq_of_done [BlockCompressor κ] [Sink ω] [RecordingSink ω]
    {settings : Settings} {compressors : List κ} {sink : ω} {h : History κ ω}
    (nonempty : compressors ≠ []) (run : Run (Pipeline.new settings compressors sink) h s)
    (done : h.entries.length ≤ s.sequencer.index) :
    ∃ made, made.length = h.entries.length ∧
      (∀ p, p < made.length → rendering compressors h.entries p = made[p]?) ∧
      RecordingSink.contents s.sink = RecordingSink.contents sink ++ Tally.zero.stitch made := by
  obtain ⟨made, later, part, htaken, hsink, stands, wrote⟩ := run.holds
  have ordered := run.ordered
  have count := ordered.taken_length_le nonempty
  have counted := wrote.le
  rw [htaken, List.length_append] at count
  obtain rfl : later = [] := List.length_eq_zero_iff.1 (by omega)
  rw [List.append_nil] at htaken
  refine ⟨made, by omega, ?_, ?_⟩
  · intro p hp
    rw [List.getElem?_eq_getElem hp]
    refine ordered.rendering_of_taken nonempty ?_
    rw [htaken, List.getElem?_eq_getElem hp]
  · rcases stands.part with rfl | ⟨entry, none, -⟩
    · rw [hsink, List.append_nil]
    · cases none

end Pipeline

namespace Writer

/-- The sink of a writer holds the header it was opened with, the entries that are done, each as the
    compressor of its lane makes it, and perhaps a part of the next one. Nothing of a block that a
    compressor failed on is there, and nothing behind it. -/
theorem contents_of_run [BlockCompressor κ] [Sink ω] [RecordingSink ω]
    {machine : Machine} {sink : ω} {options : WriterOptions} {n : Nat} {compressor : Nat → κ}
    {w : Writer κ ω} {h : History κ ω} {s : Pipeline κ ω} (valid : options.validate machine = .ok n)
    (opened : openWith machine sink options compressor = .opened w) (run : w.pipeline.Run h s) :
    ∃ (made : List Rendered) (part : Bytes),
      made.length ≤ h.entries.length ∧
      (∀ p, p < made.length →
        rendering ((List.range n).map compressor) h.entries p = made[p]?) ∧
      RecordingSink.contents s.sink =
        RecordingSink.contents sink ++ Frame.header options.level ++ Tally.zero.stitch made
          ++ part ∧
      (part = [] ∨ ∃ next,
        rendering ((List.range n).map compressor) h.entries made.length = some next ∧
        part <+: (Tally.zero.addAll made).bytes next) ∧
      ∀ m ∈ h, ∀ mishap number, m.mishap? = some mishap → mishap.number? = some number →
        ∃ p data dictionary, h.entries[p]? = some (.block number data dictionary) ∧
          made.length ≤ p ∧ (made.length = p → part = []) := by
  obtain ⟨sink', header, start⟩ := pipeline_of_openWith valid opened
  rw [start] at run
  have nonempty := compressors_ne_nil valid compressor
  obtain ⟨made, part, hlength, hmade, hcontents, hpart, hnone⟩ := run.contents_eq nonempty
  refine ⟨made, part, hlength, hmade, ?_, hpart, ?_⟩
  · rw [hcontents, RecordingSink.contents_of_writeAll_done header]
  · intro m hm mishap number mishap? number?
    obtain ⟨p, data, dictionary, hp, fails⟩ := run.of_workerMishap hm mishap? number?
    exact ⟨p, data, dictionary, hp, hnone p fails⟩

/-- Two lanes and a sink that takes ten bytes at a time. Two blocks of one member are in the sink,
    one from each lane, and the end of the member, and ten of the twelve bytes of the next block. -/
theorem contents_of_run_two_lanes :
    ∃ (w : Writer ScriptedCompressor ScriptedSink) (h : History ScriptedCompressor ScriptedSink)
      (s : Pipeline ScriptedCompressor ScriptedSink) (made : List Rendered) (part : Bytes),
      openWith .ordinary ({ chunk := some 10 } : ScriptedSink) { threads := .fixed 2 }
        (fun i => ⟨.copy, i, 0⟩) = .opened w ∧ w.pipeline.Run h s ∧
      h.entries = [.block 0 [7] [], .block 1 [8] [7], .memberEnd (some 6),
        .block 2 (List.replicate 12 9) []] ∧
      RecordingSink.contents s.sink = Frame.header 6 ++ Tally.zero.stitch made ++ part ∧
      made = [.block 0 ⟨[7], crc32 [7] 0, 1⟩, .block 1 ⟨[8], crc32 [8] 0, 1⟩,
        .memberEnd (some 6)] ∧
      part = List.replicate 10 9 := by
  have valid : ({ threads := .fixed 2 } : WriterOptions).validate .ordinary = .ok 2 :=
    WriterOptions.validate_workers .ordinary (by decide) (by decide)
  let held : ScriptedSink :=
    { chunk := some 10, collected := (#[] : Array UInt8) ++ Frame.header 6, writes := 1 }
  have header : Sink.writeAll ({ chunk := some 10 } : ScriptedSink) (Frame.header 6) =
      (.done, held) := Sink.writeAll_of_wrote (by decide) rfl
  have opened : openWith .ordinary ({ chunk := some 10 } : ScriptedSink) { threads := .fixed 2 }
      (fun i => ScriptedCompressor.mk .copy i 0) = .opened _ :=
    openWith_eq_opened valid header (Machine.hosts_ordinary (by decide) (by decide))
  let lanes : List ScriptedCompressor := [⟨.copy, 0, 0⟩, ⟨.copy, 1, 0⟩]
  let start := Pipeline.new (settings { threads := .fixed 2 } 2
      (WriterOptions.validate_workers .ordinary (by decide) (by decide))) lanes held
  let submits (data : Bytes) (lane : Nat) : List Act :=
    [.request (.submit data), .step .owner, .step .owner] ++
      List.replicate 4 (.step (.worker lane)) ++ List.replicate 3 (.step .sequencer)
  let acts : List Act := submits [7] 0 ++ List.replicate 2 (.step .sequencer) ++ submits [8] 1 ++
    List.replicate 2 (.step .sequencer) ++ [.request .flushMember, .step .owner, .step .owner] ++
    List.replicate 3 (.step (.worker 0)) ++ List.replicate 7 (.step .sequencer) ++ [.step .owner] ++
    submits (List.replicate 12 9) 1
  let entries : List Entry := [.block 0 [7] [], .block 1 [8] [7], .memberEnd (some 6),
    .block 2 (List.replicate 12 9) []]
  let all : List Rendered := [.block 0 ⟨[7], crc32 [7] 0, 1⟩, .block 1 ⟨[8], crc32 [8] 0, 1⟩,
    .memberEnd (some 6), .block 2 ⟨List.replicate 12 9, crc32 (List.replicate 12 9) 0, 12⟩]
  have goes : (start.replay? acts).map (fun s => s.sink.collected.toList) =
      some (Frame.header 6 ++ Tally.zero.stitch (all.take 3) ++ List.replicate 10 9) := by
    decide +kernel
  obtain ⟨s, replays, holds⟩ := Option.map_eq_some_iff.1 goes
  have run := Pipeline.Run.start.replay replays
  have submitted : History.entries ([] ++ start.retrace acts) = entries := by decide +kernel
  have renders : ∀ p ≤ 4, rendering lanes entries p = all[p]? := by decide +kernel
  obtain ⟨made, part, few, hmade, contents, hpart, -⟩ := contents_of_run valid opened run
  rw [submitted] at few hmade hpart
  have same : Tally.zero.stitch made ++ part =
      Tally.zero.stitch (all.take 3) ++ List.replicate 10 9 := by
    rw [List.append_assoc] at contents holds
    exact List.append_cancel_left (contents.symm.trans holds)
  have front : made = all.take made.length := by
    refine List.ext_getElem? fun p => ?_
    rw [List.getElem?_take]
    split
    · next live => exact (hmade p live).symm.trans (renders p (Nat.le_trans (Nat.le_of_lt live) few))
    · next beyond => exact List.getElem?_eq_none (Nat.le_of_not_lt beyond)
  have next : part = [] ∨ ∃ entry, all[made.length]? = some entry ∧
      part <+: (Tally.zero.addAll (all.take made.length)).bytes entry := by
    rw [← front]
    exact hpart.imp_right fun ⟨entry, result, isPrefix⟩ =>
      ⟨entry, (renders _ few).symm.trans result, isPrefix⟩
  have three : made.length = 3 := by
    refine Tally.eq_of_length_lt next ?_ ?_
    · rw [← front, same]
      decide +kernel
    · rw [← front, same]
      decide +kernel
  rw [three] at front
  subst front
  exact ⟨_, _, s, _, part, opened, run, submitted, contents, rfl, List.append_cancel_left same⟩

end Writer

end ParallelGzip
