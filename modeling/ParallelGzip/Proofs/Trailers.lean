import ParallelGzip.Proofs.Pipeline.Barrier
import ParallelGzip.Proofs.WholeMembers

set_option autoImplicit false

/-! # Trailers

The sequencer carries checksum and length of the open member from block to block and writes them at
its end. With compressors that report checksum and length of their blocks truthfully, whatever else
they make of them, these are checksum and length of the data of the blocks since the end before:
`Tally.addAll_eq` is the account along the entries, and `Run.tallies` the one of the sequencer. The
length is kept as it is and cut to 32 bits only when it is written, which is what a decoder ends up
with that counts in 32 bits. -/

namespace ParallelGzip

variable {κ ω : Type}

/-! ## What is to be written -/

/-- The data of the open member behind another entry. -/
def Entry.extend (data : Bytes) : Entry → Bytes
  | block _ raw _ => data ++ raw
  | memberEnd _ => []

/-- The data of the blocks behind the last end of a member. -/
def memberData (entries : List Entry) : Bytes := entries.foldl Entry.extend []

/-- Nothing from before the end of a member belongs to the next one. -/
theorem memberData_append (before : List Entry) (next : Option Nat) (entries : List Entry) :
    memberData (before ++ .memberEnd next :: entries) = memberData entries := by
  rw [memberData, List.foldl_append, List.foldl_cons]
  rfl

/-- The trailer of a member with these data: the checksum, and the length modulo 2³². -/
def trailerFor (data : Bytes) : Bytes :=
  Bytes.littleEndian 4 (crc32 data 0).toNat ++ Bytes.littleEndian 4 (data.length % UInt32.size)

/-- What stands behind the last block of a member with these data: the end of the compressed data,
    the trailer, and the header of the next member if there is to be one. -/
def endingFor (data : Bytes) (next : Option Nat) : Bytes :=
  [0x03, 0x00] ++ trailerFor data ++ next.elim [] Frame.header

theorem littleEndian_mod (width n : Nat) :
    Bytes.littleEndian width (n % Nat.pow 256 width) = Bytes.littleEndian width n := by
  refine Bytes.ofLittleEndian_injective (by simp) ?_
  rw [Bytes.ofLittleEndian_littleEndian, Bytes.ofLittleEndian_littleEndian, Nat.mod_mod]

theorem trailer_eq (data : Bytes) :
    Frame.trailer (crc32 data 0) data.length = trailerFor data :=
  congrArg (Bytes.littleEndian 4 (crc32 data 0).toNat ++ ·) (littleEndian_mod 4 data.length).symm

/-! ## A decoder that counts in 32 bits -/

/-- What a decoder has seen of the data of a member: its checksum, and its length modulo 2³². -/
structure Account where
  crc : UInt32
  count : UInt32

namespace Account

/-- Nothing has been seen. -/
def zero : Account := ⟨0, 0⟩

/-- Go on behind some more of the data. The count wraps around. -/
def see (account : Account) (chunk : Bytes) : Account :=
  ⟨crc32 chunk account.crc, account.count + .ofNat chunk.length⟩

/-- However the data come in chunks, the account of them is the same. -/
theorem foldl_see (chunks : List Bytes) (account : Account) :
    chunks.foldl see account =
      ⟨crc32 chunks.flatten account.crc, account.count + .ofNat chunks.flatten.length⟩ := by
  induction chunks generalizing account with
  | nil => simp
  | cons chunk chunks ih =>
    rw [List.foldl_cons, ih, see, List.flatten_cons, crc32_append, List.length_append,
      UInt32.ofNat_add, UInt32.add_assoc]

/-- The trailer that such a decoder looks for is the one of the data. -/
theorem reads_trailerFor (chunks : List Bytes) :
    let account := chunks.foldl see zero
    (MemberTrailer.read account.crc account.count.toNat).Reads (trailerFor chunks.flatten) () := by
  intro account
  have seen : account = ⟨crc32 chunks.flatten 0, .ofNat chunks.flatten.length⟩ := by
    rw [← UInt32.zero_add (.ofNat _)]
    exact foldl_see chunks zero
  rw [seen]
  exact reads_trailer _ _

end Account

/-! ## The account of the open member -/

/-- Checksum and length of some data. -/
def Tally.of (data : Bytes) : Tally := ⟨crc32 data 0, data.length⟩

/-- What has become of an entry reports it truthfully. -/
def Rendered.Reports : Rendered → Entry → Prop
  | block _ compressed, .block _ raw _ =>
    compressed.crc = crc32 raw 0 ∧ compressed.length = raw.length
  | memberEnd next, .memberEnd next' => next = next'
  | _, _ => False

namespace Tally

theorem of_nil : of [] = zero := by
  rw [of, crc32_nil]
  rfl

theorem bytes_memberEnd (data : Bytes) (next : Option Nat) :
    (of data).bytes (.memberEnd next) = endingFor data next := by
  rw [endingFor, ← trailer_eq]
  cases next <;> rfl

theorem add_eq {data : Bytes} {rendered : Rendered} {entry : Entry}
    (reports : rendered.Reports entry) : (of data).add rendered = of (entry.extend data) := by
  cases rendered with
  | block number compressed =>
    cases entry with
    | block number' raw dictionary =>
      obtain ⟨crc, length⟩ := reports
      simp only [add, of, Entry.extend, crc, length, Crc32.combine_append, List.length_append]
    | memberEnd next => exact reports.elim
  | memberEnd next =>
    cases entry with
    | block number raw dictionary => exact reports.elim
    | memberEnd next' => exact of_nil.symm

/-- Along entries that are reported truthfully the account is that of the open member. -/
theorem addAll_eq {made : List Rendered} {entries : List Entry}
    (reports : List.Forall₂ Rendered.Reports made entries) :
    zero.addAll made = of (memberData entries) := by
  have from' (data : Bytes) : (of data).addAll made = of (entries.foldl Entry.extend data) := by
    induction reports generalizing data with
    | nil => rfl
    | cons now _ ih =>
      rw [addAll, List.foldl_cons, add_eq now, List.foldl_cons]
      exact ih _
  rw [← of_nil]
  exact from' []

end Tally

namespace BlockCompressor

variable [BlockCompressor κ]

/-- Whatever a compressor has been given before, it reports checksum and length of the blocks that
    it makes. Nothing is said of what it makes of them, and it may fail. -/
def Reports (c : κ) : Prop :=
  ∀ jobs raw dictionary compressed, (compress (feed c jobs) raw dictionary).1 = .block compressed →
    compressed.crc = crc32 raw 0 ∧ compressed.length = raw.length

theorem Reports.next {c : κ} (reports : Reports c) (raw dictionary : Bytes) :
    Reports (compress c raw dictionary).2 := fun jobs => reports ((raw, dictionary) :: jobs)

theorem Reports.compressEntry {c after : κ} {entry : Entry} {rendered : Rendered}
    (reports : Reports c) (made : compressEntry c entry = some (rendered, after)) :
    rendered.Reports entry ∧ Reports after := by
  cases entry with
  | memberEnd next =>
    cases made
    exact ⟨rfl, reports⟩
  | block number data dictionary =>
    have now := reports [] data dictionary
    have later := reports.next data dictionary
    rw [ParallelGzip.compressEntry] at made
    split at made
    · next compressed after' result =>
      cases made
      have result' : compress (feed c []) data dictionary = (.block compressed, after) := result
      rw [result'] at now
      rw [result] at later
      exact ⟨now compressed rfl, later⟩
    · cases made

end BlockCompressor

open BlockCompressor (Reports)

/-- A compressor that copies its blocks reports truthfully. -/
theorem ScriptedCompressor.reports_of_copied {c : ScriptedCompressor} (copies : c.codec = .copy) :
    Reports c := by
  intro jobs raw dictionary compressed made
  have codec := codec_feed c jobs
  generalize BlockCompressor.feed c jobs = c' at made codec
  simp only [BlockCompressor.compress, render, codec, copies] at made
  split at made
  · cases made
  · split at made
    · cases made
    · split at made <;> cases made
      exact ⟨rfl, rfl⟩

/-! ## The sequencer -/

namespace Pipeline

/-- How the account of the sequencer goes with the entries it has taken, as long as it goes on. -/
def Tallies (taken : List Rendered) (s : Pipeline κ ω) : Prop :=
  match s.sequencer.phase with
  | .receiving => taken.length = s.sequencer.index ∧ s.tally = Tally.zero.addAll taken
  | .received entry => ∃ done, taken = done ++ [entry] ∧ done.length = s.sequencer.index ∧
      s.tally = Tally.zero.addAll done
  | .writing _ _ | .flushing | .advancing =>
    taken.length = s.sequencer.index + 1 ∧ s.tally = Tally.zero.addAll taken
  | _ => True

variable {taken : List Rendered} {s s' : Pipeline κ ω}

theorem Tallies.of_eq (tallies : s.Tallies taken) (sequencer : s'.sequencer = s.sequencer) :
    s'.Tallies taken := by
  unfold Tallies tally at tallies ⊢
  rw [sequencer]
  exact tallies

theorem Tallies.move [Sink ω] (tallies : s.Tallies taken) (move : s.SequencerMove s') :
    s'.Tallies (taken ++ (Moment.mk s (.step .sequencer) s').taken?.toList) := by
  -- only receiving takes an entry
  have same (passes : ∀ rendered, s'.sequencer.phase ≠ .received rendered) :
      taken ++ (Moment.mk s (.step .sequencer) s').taken?.toList = taken := by
    have none : (Moment.mk s (.step .sequencer) s').taken? = none := by
      unfold Moment.taken?
      split
      · next rendered _ phase => exact absurd phase (passes rendered)
      · rfl
    rw [none, Option.toList_none, List.append_nil]
  cases move with
  | receive phase turn outbox =>
    rw [Tallies, phase] at tallies
    exact ⟨taken, rfl, tallies⟩
  | @start rendered phase going =>
    rw [Tallies, phase] at tallies
    obtain ⟨done, rfl, count, account⟩ := tallies
    rw [beginWriting_eq] at same ⊢
    rw [same nofun]
    refine ⟨?_, ?_⟩
    · rw [List.length_append, count]
      rfl
    · rw [Tally.addAll_append_singleton, ← account]
      rfl
  | @finish thenFlush phase =>
    rw [Tallies, phase] at tallies
    rw [same (by cases thenFlush <;> exact nofun)]
    cases thenFlush <;> exact tallies
  | write phase nonempty result | flush phase result =>
    rw [Tallies, phase] at tallies
    rw [same nofun]
    exact tallies
  | interrupted phase nonempty result =>
    rw [same (by rw [phase]; exact nofun)]
    exact tallies.of_eq rfl
  | advance phase =>
    rw [Tallies, phase] at tallies
    rw [same nofun]
    exact tallies
  | leave | fail | record | cancel | closeLane | exit => trivial

theorem Run.tallies [BlockCompressor κ] [Sink ω] {settings : Settings} {compressors : List κ}
    {sink : ω} {h : History κ ω} (run : Run (Pipeline.new settings compressors sink) h s) :
    s.Tallies h.taken := by
  induction run with
  | start => exact ⟨rfl, rfl⟩
  | @step h s s' party _ step ih =>
    cases party with
    | owner =>
      rw [History.taken_concat_of_none h rfl]
      exact ih.of_eq (move_of_ownerStep? step).frame.2.1
    | worker i =>
      rw [History.taken_concat_of_none h rfl]
      exact ih.of_eq (frame_of_workerStep? step).sequencer
    | sequencer =>
      rw [History.taken_concat]
      exact ih.move (move_of_sequencerStep? step)
  | @request h s r _ _ ih =>
    obtain ⟨phase, after⟩ := request_frame s r
    rw [History.taken_concat_of_none h rfl]
    exact ih.of_eq (by rw [after])

section Endings

variable [BlockCompressor κ] {compressors : List κ} {entries : List Entry} {made : List Rendered}

/-- The account of what has been made of some entries is that of their open member. -/
theorem tally_of_rendering (reports : ∀ c ∈ compressors, Reports c)
    (results : ∀ p, p < made.length → rendering compressors entries p = made[p]?) :
    Tally.zero.addAll made = .of (memberData (entries.take made.length)) :=
  Tally.addAll_eq (forall₂_of_rendering
    (fun _ _ _ _ keeps made => BlockCompressor.Reports.compressEntry keeps made) reports results)

/-- What passes as the end of a member has been submitted as one. -/
theorem exists_of_rendering_memberEnd {p : Nat} {next : Option Nat}
    (reports : ∀ c ∈ compressors, Reports c)
    (result : rendering compressors entries p = some (.memberEnd next)) :
    ∃ earlier later, entries = earlier ++ .memberEnd next :: later ∧ earlier.length = p := by
  obtain ⟨entry, listed, passes⟩ := exists_entry_of_rendering
    (fun _ _ _ _ keeps made => BlockCompressor.Reports.compressEntry keeps made) reports result
  cases entry with
  | block number raw dictionary => exact passes.elim
  | memberEnd next' =>
    obtain rfl : next = next' := passes
    obtain ⟨live, found⟩ := List.getElem?_eq_some_iff.1 listed
    refine ⟨entries.take p, entries.drop (p + 1), ?_, List.length_take_of_le (Nat.le_of_lt live)⟩
    rw [← found, ← List.drop_eq_getElem_cons live, List.take_append_drop]

variable [Sink ω] {settings : Settings} {sink : ω} {h : History κ ω}

/-- When the sequencer turns to the end of a member, its account is that of the open member. -/
theorem Run.account (nonempty : compressors ≠ []) (reports : ∀ c ∈ compressors, Reports c)
    (run : Run (Pipeline.new settings compressors sink) h s) {next : Option Nat}
    (phase : s.sequencer.phase = .received (.memberEnd next)) :
    ∃ earlier later, h.entries = earlier ++ .memberEnd next :: later ∧
      earlier.length = s.sequencer.index ∧ s.tally = .of (memberData earlier) := by
  have tallies := run.tallies
  rw [Tallies, phase] at tallies
  obtain ⟨done, taken, count, account⟩ := tallies
  have results (p : Nat) {rendered : Rendered} (found : h.taken[p]? = some rendered) :
      rendering compressors h.entries p = some rendered :=
    run.ordered.rendering_of_taken nonempty found
  obtain ⟨earlier, later, split, place⟩ := exists_of_rendering_memberEnd reports
    (results _ (taken ▸ List.getElem?_concat_length))
  have account' : Tally.zero.addAll done = .of (memberData (h.entries.take done.length)) := by
    refine tally_of_rendering reports fun p live => ?_
    rw [List.getElem?_eq_getElem live]
    refine results p ?_
    rw [taken, List.getElem?_append_left live, List.getElem?_eq_getElem live]
  rw [split, ← place, List.take_left] at account'
  exact ⟨earlier, later, split, place.trans count, account.trans account'⟩

/-- Behind what has been made of the entries before it, an end of a member that the sequencer is done
    with is in the sink. -/
theorem Run.exists_ending [RecordingSink ω] (nonempty : compressors ≠ [])
    (reports : ∀ c ∈ compressors, Reports c)
    (run : Run (Pipeline.new settings compressors sink) h s) {earlier later : List Entry}
    {next : Option Nat} (entries : h.entries = earlier ++ .memberEnd next :: later)
    (done : earlier.length < s.sequenced) :
    ∃ made, made.length = earlier.length ∧
      (∀ p, p < made.length → rendering compressors h.entries p = made[p]?) ∧
      RecordingSink.contents sink ++ Tally.zero.stitch made ++ endingFor (memberData earlier) next
        <+: RecordingSink.contents s.sink := by
  obtain ⟨made, rest, part, taken, contents, -, wrote⟩ := run.holds
  have results (p : Nat) (live : p < made.length) :
      rendering compressors h.entries p = made[p]? := by
    rw [List.getElem?_eq_getElem live]
    refine run.ordered.rendering_of_taken nonempty ?_
    rw [taken, List.getElem?_append_left live, List.getElem?_eq_getElem live]
  obtain ⟨front, back, rfl, count⟩ : ∃ front back, made = front ++ .memberEnd next :: back ∧
      front.length = earlier.length := by
    have reached : earlier.length < made.length :=
      Nat.lt_of_lt_of_le (run.linked.sequenced ▸ done) wrote.le
    have ending : made[earlier.length] = .memberEnd next :=
      rendering_memberEnd (by simp [entries])
        ((results _ reached).trans (List.getElem?_eq_getElem reached))
    refine ⟨made.take earlier.length, made.drop (earlier.length + 1), ?_,
      List.length_take_of_le (Nat.le_of_lt reached)⟩
    rw [← ending, ← List.drop_eq_getElem_cons reached, List.take_append_drop]
  have results' (p : Nat) (live : p < front.length) :
      rendering compressors h.entries p = front[p]? := by
    rw [results p (by rw [List.length_append]; omega), List.getElem?_append_left live]
  have account := tally_of_rendering reports results'
  rw [count, entries, List.take_left] at account
  refine ⟨front, count, results', ?_⟩
  rw [contents, Tally.stitch_append, account, Tally.stitch, Tally.bytes_memberEnd]
  simp only [List.append_assoc, List.prefix_append_right_inj, List.prefix_append]

end Endings

end Pipeline

namespace Writer

variable [BlockCompressor κ] [Sink ω] [RecordingSink ω] {sink : ω} {machine : Machine}
  {options : WriterOptions} {n : Nat} {compressor : Nat → κ} {w : Writer κ ω} {h : History κ ω}
  {s : Pipeline κ ω}

/-- Every trailer is right. With compressors that report checksum and length of their blocks
    truthfully, whatever they make of them and whether or not one fails, the sequencer turns to the
    end of a member, unless the writer has been cancelled, to write the end of the compressed data
    and the trailer of the data submitted since the end before, however long they are and in however
    many blocks; and when it is done with it, this is in the sink behind what the entries before it
    have come to. Nothing of an earlier member counts. A decoder that has seen these data, in
    whatever chunks, and has counted them in 32 bits, finds the trailer that it looks for. -/
theorem trailers_right (valid : options.validate machine = .ok n)
    (reports : ∀ i < n, Reports (compressor i))
    (opened : openWith machine sink options compressor = .opened w) (run : w.pipeline.Run h s) :
    (∀ m ∈ h, ∀ next, m.act = .step .sequencer →
      m.before.sequencer.phase = .received (.memberEnd next) → m.before.cancelled = false →
      ∃ earlier later, h.entries = earlier ++ .memberEnd next :: later ∧
        earlier.length = m.before.sequencer.index ∧
        m.after.sequencer.phase = .writing (endingFor (memberData earlier) next) true) ∧
    (∀ earlier next later, h.entries = earlier ++ .memberEnd next :: later →
      earlier.length < s.sequenced →
      ∃ made, made.length = earlier.length ∧
        (∀ p, p < made.length →
          rendering ((List.range n).map compressor) h.entries p = made[p]?) ∧
        RecordingSink.contents sink ++ Frame.header options.level ++ Tally.zero.stitch made
          ++ endingFor (memberData earlier) next <+: RecordingSink.contents s.sink) ∧
    (∀ before next entries,
      memberData (before ++ .memberEnd next :: entries) = memberData entries) ∧
    ∀ chunks : List Bytes,
      let account := chunks.foldl Account.see .zero
      (MemberTrailer.read account.crc account.count.toNat).Reads (trailerFor chunks.flatten) () := by
  obtain ⟨sink', header, start⟩ := pipeline_of_openWith valid opened
  rw [start] at run
  have nonempty := compressors_ne_nil valid compressor
  have all : ∀ c ∈ (List.range n).map compressor, Reports c := by
    intro c hc
    obtain ⟨i, hi, rfl⟩ := List.mem_map.1 hc
    exact reports i (List.mem_range.1 hi)
  refine ⟨?_, ?_, memberData_append, Account.reads_trailerFor⟩
  · intro m hm next act phase going
    obtain ⟨h₁, h₂, rfl⟩ := List.append_of_mem hm
    obtain ⟨earlier, later, entries, place, account⟩ := run.split.1.account nonempty all phase
    refine ⟨earlier, later ++ History.entries (m :: h₂), ?_, place, ?_⟩
    · rw [History.entries_append, entries, List.append_assoc, List.cons_append]
    · obtain ⟨party, act', step⟩ | ⟨r, act', -⟩ := run.act_of_mem hm
      · obtain rfl : Pipeline.Party.sequencer = party := Act.step.inj (act.symm.trans act')
        rw [Pipeline.step?, Pipeline.sequencerStep?, phase] at step
        dsimp only at step
        rw [going, if_neg Bool.false_ne_true, Option.some.injEq, Pipeline.beginWriting_eq, account,
          Tally.bytes_memberEnd] at step
        rw [← step]
      · cases act.symm.trans act'
  · intro earlier next later entries done
    rw [← RecordingSink.contents_of_writeAll_done header]
    exact run.exists_ending nonempty all entries done

/-- Two members of blocks that are copied, and so no compressed data: what has been written behind
    the second one is the trailer of its two bytes. -/
theorem trailers_right_copied :
    ∃ (w : Writer ScriptedCompressor (Array UInt8))
      (h : History ScriptedCompressor (Array UInt8))
      (s : Pipeline ScriptedCompressor (Array UInt8)) (made : List Rendered),
      openWith .ordinary #[] {} (fun _ => ⟨.copy, 0, 0⟩) = .opened w ∧ w.pipeline.Run h s ∧
      h.entries = [.block 0 [7] [], .memberEnd (some 6), .block 1 [8, 9] [],
        .memberEnd (some 6)] ∧ made.length = 3 ∧
      Frame.header 6 ++ Tally.zero.stitch made ++ endingFor [8, 9] (some 6)
        <+: s.sink.toList := by
  have valid := WriterOptions.validate_default .ordinary
  have opened := openWith_array (fun _ => ScriptedCompressor.mk .copy 0 0) valid
    Machine.hosts_default
  let start := Pipeline.new (settings {} 1 (WriterOptions.validate_default .ordinary))
    [ScriptedCompressor.mk .copy 0 0] ((#[] : Array UInt8) ++ Frame.header 6)
  let member (data : Bytes) : List Act := [.request (.submit data), .step .owner, .step .owner] ++
    List.replicate 4 (.step (.worker 0)) ++ List.replicate 5 (.step .sequencer) ++
    [.request .flushMember, .step .owner, .step .owner] ++ List.replicate 3 (.step (.worker 0)) ++
    List.replicate 6 (.step .sequencer) ++ [.step .owner]
  have goes : (start.replay? (member [7] ++ member [8, 9])).map (fun s => s.sequenced) = some 4 := by
    decide +kernel
  obtain ⟨s, replays, sequenced⟩ := Option.map_eq_some_iff.1 goes
  have run := Pipeline.Run.start.replay replays
  have entries : History.entries ([] ++ start.retrace (member [7] ++ member [8, 9])) =
    [.block 0 [7] [], .memberEnd (some 6), .block 1 [8, 9] []] ++ .memberEnd (some 6) :: [] := by
    decide +kernel
  obtain ⟨-, ended, -⟩ :=
    trailers_right valid (fun _ _ => ScriptedCompressor.reports_of_copied rfl) opened run
  obtain ⟨made, count, -, written⟩ := ended _ _ _ entries (sequenced ▸ by decide)
  exact ⟨_, _, s, made, opened, run, entries, count, written⟩

end Writer

end ParallelGzip
