import ParallelGzip.Proofs.Agreement
import ParallelGzip.Proofs.Stream.Muted
import ParallelGzip.Proofs.Truncation

set_option autoImplicit false

/-! # Cut off: a decoder over a source that breaks off

A decoder over a source that breaks off does what it does over the muted source, until the source
fails or the data proves damaged. So its failures are few: it passes on that of the source, and what
it has of its own is damage, for to find data wanting it would have to come to its end. -/

namespace ParallelGzip

open Deflate (Inflater)

/-! ## Damage -/

/-- What a decoder fails with because of what it has been given, not because there is no more. -/
inductive IoError.Damage : IoError → Prop
  | defect (defect : MemberDefect) : Damage defect.toIo
  | corruptBody : Damage ParallelGzip.corruptBody

namespace IoError.Damage

variable {cause : IoError}

theorem fromDecoder (damage : cause.Damage) : cause.FromDecoder := by
  cases damage with
  | defect defect => exact .defect defect
  | corruptBody => exact .corruptBody

theorem not_endsEarly (damage : cause.Damage) : ¬cause.EndsEarly := by
  intro early
  have short : cause.kind = .unexpectedEof := by cases early <;> rfl
  have bad : cause.kind = .invalidInput := by
    cases damage with
    | defect defect => cases defect <;> rfl
    | corruptBody => rfl
  rw [short] at bad
  cases bad

end IoError.Damage

/-! ## Inside a member -/

section Muted

variable {σ : Type} [Source σ] {known : IoError → Prop} {b b' : Buffered σ} {n : Nat}

/-- What is held, in front of the muted source. -/
def Holding.mute : Holding σ → Holding (Muted σ)
  | .between b => .between b.mute
  | .inside stage b => .inside stage b.mute
  | .lost => .lost

/-- The source that is held does not come to an end. -/
def Holding.StopsWith (known : IoError → Prop) : Holding σ → Prop
  | .between b | .inside _ b => b.StopsWith known
  | .lost => False

/-- What a request comes to, and what it comes to in front of the muted source: the source has failed,
    the data is damaged, or both go on. -/
inductive Outcome.Alike (known : IoError → Prop) : Outcome σ → Outcome (Muted σ) → Prop
  | failed {cause : IoError} {holding : Holding σ} {outcome : Outcome (Muted σ)}
      (fails : known cause) : Alike known (.result (.failed cause) holding) outcome
  | damaged {cause : IoError} {holding : Holding σ} {holding' : Holding (Muted σ)}
      (damage : cause.Damage) :
      Alike known (.result (.failed cause) holding) (.result (.failed cause) holding')
  | same {result : ReadResult} {holding : Holding σ} (goes : result.Goes)
      (next : holding.StopsWith known) :
      Alike known (.result result holding) (.result result holding.mute)
  | ended {b : Buffered σ} (next : b.StopsWith known) : Alike known (.ended b) (.ended b.mute)

theorem alike_readTrailer (stops : b.StopsWith known) (p : Parser UInt8 MemberDefect Unit) :
    (readTrailer p b).Alike known (readTrailer p b.mute) := by
  have alike := stops.parse p
  rw [readTrailer, readTrailer]
  generalize b.parse p = parsed, b.mute.parse p = muted at alike ⊢
  cases alike with
  | failed fails => exact .failed fails
  | done next => exact .ended next
  | defect next => exact .damaged (.defect _)

theorem alike_readBody (stops : b.StopsWith known) (z : Inflater) (pos : 0 < n) :
    (readBody z b n).Alike known (readBody z b.mute n) := by
  fun_induction readBody z b n with
  | case1 z b slice b' filled output z' rest inflated =>
    obtain ⟨muted, -, -⟩ := stops.filled filled
    rw [readBody, muted]
    dsimp only
    rw [inflated]
    exact .damaged .corruptBody
  | case2 z b slice b' filled stop output z' rest sound inflated some =>
    obtain ⟨muted, -, next⟩ := stops.filled filled
    rw [readBody, muted]
    dsimp only
    rw [inflated]
    cases stop with
    | corrupt => exact absurd rfl sound
    | full | hungry | finished =>
      dsimp only
      rw [if_pos some]
      exact .same (.delivered some) (next.withBuffer rest)
  | case3 z b slice b' filled output z' rest none _ inflated =>
    obtain ⟨muted, -, next⟩ := stops.filled filled
    rw [readBody, muted]
    dsimp only
    rw [inflated]
    dsimp only
    rw [if_neg none]
    exact alike_readTrailer (next.withBuffer rest) _
  | case4 z b b' output z' rest none filled => exact absurd rfl (stops.filled filled).2.1
  | case5 z b slice b' filled output z' rest none some _ inflated ih =>
    obtain ⟨muted, -, next⟩ := stops.filled filled
    rw [readBody.eq_def z b.mute, muted]
    dsimp only
    rw [inflated]
    dsimp only
    rw [if_neg none, if_neg some]
    exact ih (next.withBuffer [])
  | case6 z b slice b' filled stop output z' rest corrupt inflated none finished hungry =>
    obtain rfl := not_not.1 none
    cases stop with
    | full => exact absurd rfl (Inflater.output_ne_nil_of_full inflated pos)
    | finished => exact (finished rfl).elim
    | hungry => exact (hungry rfl).elim
    | corrupt => exact (corrupt rfl).elim
  | case7 z b result b' other filled =>
    obtain ⟨cause, rfl, fails⟩ | ⟨goes, next, muted⟩ := stops.fillBuffer.of_eq filled
    · exact .failed fails
    · rw [readBody, muted]
      cases goes with
      | delivered some => exact absurd rfl (other _)
      | interrupted cause => exact .same (.interrupted cause) next

theorem alike_readHeader (stops : b.StopsWith known) (p : Parser UInt8 MemberDefect Unit)
    (pos : 0 < n) : (readHeader p b n).Alike known (readHeader p b.mute n) := by
  have alike := stops.parse p
  rw [readHeader, readHeader]
  generalize b.parse p = parsed, b.mute.parse p = muted at alike ⊢
  cases alike with
  | failed fails => exact .failed fails
  | done next => exact alike_readBody next _ pos
  | defect next => exact .damaged (.defect _)

/-- A source that does not block is not asked again for a header. -/
theorem alike_openMember (stops : b.StopsWith known)
    (unblocked : ∀ cause, known cause → cause.kind ≠ .wouldBlock) (pos : 0 < n) :
    (openMember b n).Alike known (openMember b.mute n) := by
  have alike := stops.parse MemberHeader.read
  rw [openMember, openMember]
  generalize b.parse MemberHeader.read = parsed, b.mute.parse MemberHeader.read = muted at alike ⊢
  cases alike with
  | failed fails =>
    dsimp only
    rw [if_neg (unblocked _ fails)]
    exact .failed fails
  | done next => exact alike_readBody next _ pos
  | defect next => exact .damaged (.defect _)

theorem alike_readInside (stops : b.StopsWith known) (stage : Stage) (pos : 0 < n) :
    (readInside stage b n).Alike known (readInside stage b.mute n) := by
  cases stage with
  | header p => exact alike_readHeader stops p pos
  | body z => exact alike_readBody stops z pos
  | trailer p => exact alike_readTrailer stops p

/-! ## Between members -/

/-- A search that goes on: there is a member, or it can be tried again. -/
inductive Search.Goes : Search → Prop
  | found : Goes .found
  | interrupted (cause : IoError) : Goes (.interrupted cause)

theorem alike_skipPadding (stops : b.StopsWith known) :
    Buffered.Alike known Search.failed Search.Goes (skipPadding b) (skipPadding b.mute) := by
  fun_induction skipPadding b with
  | case1 b b' filled => exact absurd rfl (stops.filled filled).2.1
  | case2 b c bytes b' filled padding ends =>
    obtain ⟨muted, -, next⟩ := stops.filled filled
    rw [skipPadding, muted]
    dsimp only
    rw [if_pos ends]
    exact .same .found (next.withBuffer _)
  | case3 b c bytes b' filled padding ends ih =>
    obtain ⟨muted, -, next⟩ := stops.filled filled
    rw [skipPadding.eq_def b.mute, muted]
    dsimp only
    rw [if_neg ends]
    exact ih (next.withBuffer _)
  | case4 b cause b' filled =>
    obtain ⟨cause', failed, -⟩ | ⟨-, next, muted⟩ := stops.fillBuffer.of_eq filled
    · cases failed
    · rw [skipPadding, muted]
      exact .same (.interrupted cause) next
  | case5 b cause b' filled =>
    obtain ⟨cause', failed, fails⟩ | ⟨goes, -⟩ := stops.fillBuffer.of_eq filled
    · cases failed
      exact .failed fails
    · cases goes
  | case6 b b' filled =>
    obtain ⟨cause, failed, -⟩ | ⟨goes, -⟩ := stops.fillBuffer.of_eq filled
    · cases failed
    · cases goes

theorem alike_findMember (stops : b.StopsWith known) (started : Nat) :
    Buffered.Alike known Search.failed Search.Goes (findMember b started)
      (findMember b.mute started) := by
  rw [findMember, findMember]
  split
  · have alike := stops.fillBuffer
    generalize b.fillBuffer = filled, b.mute.fillBuffer = muted at alike ⊢
    cases alike with
    | failed fails => exact .failed fails
    | same goes next =>
      cases goes with
      | @delivered bytes some =>
        cases bytes with
        | nil => exact absurd rfl some
        | cons c bytes => exact .same .found next
      | interrupted cause => exact .same (.interrupted cause) next
  · exact alike_skipPadding stops

/-! ## Requests -/

namespace Members

/-- The decoder in front of the muted source. -/
def mute (m : Members σ) : Members (Muted σ) := ⟨m.holding.mute, m.started, m.finished⟩

/-- A decoder in front of a source that does not come to an end has not found one. -/
structure StopsWith (known : IoError → Prop) (m : Members σ) : Prop where
  unfinished : m.finished = false
  holding : m.holding.StopsWith known

/-- What a request comes to, and what it comes to in front of the muted source. -/
inductive Alike (known : IoError → Prop) :
    ReadResult × Members σ → ReadResult × Members (Muted σ) → Prop
  | failed {cause : IoError} {m : Members σ} {answer : ReadResult × Members (Muted σ)}
      (fails : known cause) : Alike known (.failed cause, m) answer
  | damaged {cause : IoError} {m : Members σ} {m' : Members (Muted σ)} (damage : cause.Damage) :
      Alike known (.failed cause, m) (.failed cause, m')
  | same {result : ReadResult} {m : Members σ} (goes : result.Goes) (next : m.StopsWith known) :
      Alike known (result, m) (result, m.mute)

/-- A member that is found is found in front of the muted source, too. -/
theorem StopsWith.found {b' : Buffered σ} (stops : b.StopsWith known) {started : Nat}
    (search : findMember b started = (.found, b')) :
    findMember b.mute started = (.found, b'.mute) ∧ b'.StopsWith known := by
  obtain ⟨cause, failed, -⟩ | ⟨-, next, muted⟩ := (alike_findMember stops started).of_eq search
  · cases failed
  · exact ⟨muted, next⟩

theorem alike_readNext (stops : b.StopsWith known)
    (unblocked : ∀ cause, known cause → cause.kind ≠ .wouldBlock) (started : Nat) (pos : 0 < n) :
    Alike known (readNext b started n) (readNext b.mute started n) := by
  fun_induction readNext b started n with
  | case1 b started b' search result holding opened =>
    obtain ⟨muted, next⟩ := StopsWith.found stops search
    have alike := alike_openMember next unblocked pos
    rw [opened] at alike
    rw [readNext, muted]
    dsimp only
    generalize openMember b'.mute n = outcome at alike ⊢
    cases alike with
    | failed fails => exact .failed fails
    | damaged damage => exact .damaged damage
    | same goes next => exact .same goes ⟨rfl, next⟩
  | case2 b started b' search b'' opened ih =>
    obtain ⟨muted, next⟩ := StopsWith.found stops search
    have alike := alike_openMember next unblocked pos
    rw [opened] at alike
    rw [readNext.eq_def b.mute, muted]
    dsimp only
    generalize openMember b'.mute n = outcome at alike ⊢
    cases alike with
    | ended later => exact ih later
  | case3 b started b' search opened =>
    have alike := alike_openMember (StopsWith.found stops search).2 unblocked pos
    rw [opened] at alike
    generalize openMember b'.mute n = outcome at alike
    cases alike
  | case4 b started b' search | case7 b started b' search =>
    obtain ⟨cause, failed, -⟩ | ⟨goes, -⟩ := (alike_findMember stops started).of_eq search
    · cases failed
    · cases goes
  | case5 b started cause b' search =>
    obtain ⟨cause', failed, -⟩ | ⟨-, next, muted⟩ := (alike_findMember stops started).of_eq search
    · cases failed
    · rw [readNext, muted]
      exact .same (.interrupted cause) ⟨rfl, next⟩
  | case6 b started cause b' search =>
    obtain ⟨cause', failed, fails⟩ | ⟨goes, -⟩ := (alike_findMember stops started).of_eq search
    · cases failed
      exact .failed fails
    · cases goes

theorem StopsWith.alike_read {m : Members σ} (stops : m.StopsWith known)
    (unblocked : ∀ cause, known cause → cause.kind ≠ .wouldBlock) (pos : 0 < n) :
    Alike known (m.read n) (m.mute.read n) := by
  obtain ⟨holding, started, finished⟩ := m
  obtain ⟨rfl, stops⟩ := stops
  unfold Members.read
  rw [if_neg (Nat.ne_of_gt pos), if_neg (Nat.ne_of_gt pos)]
  cases holding with
  | between b => exact alike_readNext stops unblocked started pos
  | lost => exact stops.elim
  | inside stage b =>
    have alike := alike_readInside stops stage pos
    dsimp only [mute, Holding.mute]
    generalize readInside stage b n = outcome, readInside stage b.mute n = muted at alike ⊢
    cases alike with
    | failed fails => exact .failed fails
    | damaged damage => exact .damaged damage
    | same goes next => exact .same goes ⟨rfl, next⟩
    | ended next => exact alike_readNext next unblocked started pos

/-- The failures that a decoder comes to in front of a source that breaks off: the failure of the
    source, or damage in the data before it. -/
def Blames (data : Bytes) (cause blamed : IoError) : Prop :=
  blamed = cause ∨ (verdictOn 0 data).failure = some blamed ∧ blamed.Damage

omit [Source σ] in
/-- Data that is whole or ends too early is not damaged. -/
theorem Blames.eq {data : Bytes} {cause blamed : IoError} (blames : Blames data cause blamed)
    (sound : ∀ failure, (verdictOn 0 data).failure = some failure → failure.EndsEarly) :
    blamed = cause := by
  rcases blames with same | ⟨failure, damage⟩
  · exact same
  · exact absurd (sound _ failure) damage.not_endsEarly

/-- A decoder in front of a source that breaks off fails as the source does, unless the data before is
    damaged. -/
theorem stopsWith_of_breaksOff {s : σ} {data : Bytes} {cause : IoError} {refusals capacity : Nat}
    (breaks : Source.BreaksOff s data cause refusals) (unblocked : cause.kind ≠ .wouldBlock)
    (room : 0 < capacity) :
    Source.StopsWith (Blames data cause) (new ⟨s, capacity, []⟩) := by
  refine ⟨fun m => m.StopsWith (· = cause) ∧ ∃ rest refusals, m.mute.Holds rest refusals ∧
    (m.mute.verdict rest).failure = (verdictOn 0 data).failure, ?_, ⟨rfl, room, breaks.stopsWith⟩,
    data, refusals, holds_new breaks.serves room, rfl⟩
  rintro m n ⟨stops, rest, refusals, holds, told⟩ pos
  have alike := stops.alike_read (by rintro _ rfl; exact unblocked) pos
  have answers := holds.read pos
  show Source.Stops _ _ (m.read n)
  rw [show Source.read m.mute n = m.mute.read n from rfl] at answers
  generalize m.read n = answer, m.mute.read n = muted at alike answers ⊢
  cases alike with
  | failed fails => exact .failed (.inl fails)
  | damaged damage =>
    cases answers with
    | refused passing =>
      cases passing with
      | failed passing => exact absurd passing damage.fromDecoder.not_passing
    | failed final failure => exact .failed (.inr ⟨told ▸ failure, damage⟩)
  | @same result m' goes next =>
    cases goes with
    | delivered some =>
      cases answers with
      | delivered _ fewer holds whole =>
        refine .delivered some ⟨next, _, _, holds, ?_⟩
        rw [← told, whole]
        rfl
      | refused passing => cases passing
      | ended => exact absurd rfl some
    | interrupted cause =>
      cases answers with
      | refused passing fewer holds whole =>
        exact .interrupted ⟨next, _, _, holds, by rw [← told, whole]⟩

end Members

end Muted

end ParallelGzip
