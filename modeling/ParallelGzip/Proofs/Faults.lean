import ParallelGzip.Members
import ParallelGzip.Proofs.Member.Prospect

set_option autoImplicit false

/-! # Faults: where a failure comes from

A decoder has its own ways to fail, all of which blame the data, and it passes on what its source
fails with. Nothing else comes out of it (`Members.failsOnly`), so in front of a source that does
not fail every failure is the decoder's own. Such a failure is never a refusal that could be tried
again, and is classified as damaged or truncated input. -/

namespace ParallelGzip

open Deflate (Inflater)

/-! ## Failures of the decoder -/

/-- What a decoder itself fails with. -/
inductive IoError.FromDecoder : IoError → Prop
  | defect (defect : MemberDefect) : FromDecoder defect.toIo
  | corruptBody : FromDecoder ParallelGzip.corruptBody
  | endedInBody : FromDecoder ParallelGzip.endedInBody
  | endedInFrame : FromDecoder ParallelGzip.endedInFrame

namespace IoError.FromDecoder

variable {cause : IoError}

theorem not_passing (own : cause.FromDecoder) : ¬cause.Passing := by
  cases own with
  | defect defect => exact defect.not_passing
  | corruptBody | endedInBody | endedInFrame => decide

theorem isCorruptInput_ofDecoder (own : cause.FromDecoder) :
    (Error.ofDecoder cause).isCorruptInput = true := by
  cases own with
  | defect defect => cases defect <;> rfl
  | corruptBody | endedInBody | endedInFrame => rfl

/-- What a decoder fails with is reported as it is, also by those who read through a stream. -/
theorem ofIo_toIo_ofDecoder (own : cause.FromDecoder) (shared : Bool) :
    Error.ofIo ((Error.ofDecoder cause).toIo shared) = Error.ofDecoder cause := by
  cases own with
  | defect defect => cases defect <;> rfl
  | corruptBody | endedInBody | endedInFrame => rfl

end IoError.FromDecoder

theorem Fate.fromDecoder_ofTrailer {p : Parser UInt8 MemberDefect Unit} {data : Bytes}
    {cause : IoError} (fails : Fate.ofTrailer p data = .failed cause) : cause.FromDecoder := by
  rw [Fate.ofTrailer] at fails
  split at fails
  · cases fails
  · cases fails
    exact .defect _
  · cases fails
    exact .endedInFrame

theorem Prospect.fromDecoder_ofBody {z : Inflater} {data : Bytes} {cause : IoError}
    (fails : (Prospect.ofBody z data).fate = .failed cause) : cause.FromDecoder := by
  rw [Prospect.ofBody] at fails
  dsimp only at fails
  unfold Fate.ofBody at fails
  split at fails
  · exact Fate.fromDecoder_ofTrailer fails
  · cases fails
    exact .corruptBody
  · cases fails
    exact .endedInBody

/-- Whatever the data, a member does not fail otherwise. -/
theorem Prospect.fromDecoder_ofHeader {p : Parser UInt8 MemberDefect Unit} {data : Bytes}
    {cause : IoError} (fails : (Prospect.ofHeader p data).fate = .failed cause) :
    cause.FromDecoder := by
  unfold Prospect.ofHeader at fails
  split at fails
  · exact fromDecoder_ofBody fails
  · cases fails
    exact .defect _
  · cases fails
    exact .endedInFrame

/-! ## Failures of sources -/

section Sources

variable {σ : Type} [Source σ] {known : IoError → Prop}

namespace Source

/-- The source fails with these causes only, however often it is asked. -/
def FailsOnly (known : IoError → Prop) (s : σ) : Prop :=
  ∃ keeps : σ → Prop,
    (∀ s n, keeps s →
      (∀ cause, (Source.read s n).1 = .failed cause → known cause) ∧ keeps (Source.read s n).2) ∧
    keeps s

/-- The source does not fail. -/
def Unfailing (s : σ) : Prop := FailsOnly (fun _ => False) s

theorem FailsOnly.read {s s' : σ} {n : Nat} {result : ReadResult} (only : FailsOnly known s)
    (answer : Source.read s n = (result, s')) :
    (∀ cause, result = .failed cause → known cause) ∧ FailsOnly known s' := by
  obtain ⟨keeps, closed, kept⟩ := only
  obtain ⟨fails, next⟩ := closed s n kept
  rw [answer] at fails next
  exact ⟨fails, keeps, closed, next⟩

end Source

/-- A schedule that never blocks. -/
theorem Scheduled.unfailing {s : Scheduled} (calm : .blocked ∉ s.turns) : Source.Unfailing s := by
  refine ⟨fun s => .blocked ∉ s.turns, ?_, calm⟩
  rintro ⟨data, turns⟩ n calm
  cases turns with
  | nil => exact ⟨nofun, calm⟩
  | cons turn turns =>
    have later : .blocked ∉ turns := fun blocked => calm (.tail _ blocked)
    cases turn with
    | serve more | interrupted => exact ⟨nofun, later⟩
    | blocked => exact absurd (List.mem_cons_self ..) calm

namespace Buffered

variable {b b' : Buffered σ} {result : ReadResult}

theorem failsOnly_refill (only : Source.FailsOnly known b.source) {size : Nat}
    (filled : b.refill size = (result, b')) :
    (∀ cause, result = .failed cause → known cause) ∧ Source.FailsOnly known b'.source := by
  rw [refill] at filled
  split at filled
  · split at filled
    all_goals
      next answer =>
        cases filled
        exact only.read answer
  · cases filled
    exact ⟨by rintro _ ⟨⟩, only⟩

theorem failsOnly_fillBuffer (only : Source.FailsOnly known b.source)
    (filled : b.fillBuffer = (result, b')) :
    (∀ cause, result = .failed cause → known cause) ∧ Source.FailsOnly known b'.source :=
  failsOnly_refill only filled

theorem failsOnly_nextByte (only : Source.FailsOnly known b.source) (want : Nat) :
    (∀ cause, (b.nextByte want).1 = .failed cause → known cause) ∧
      Source.FailsOnly known (b.nextByte want).2.source := by
  fun_induction Buffered.nextByte b want with
  | case1 b b' filled | case2 b c bytes b' filled | case5 b b' filled =>
    exact ⟨by rintro _ ⟨⟩, (failsOnly_refill only filled).2⟩
  | case3 b cause b' filled ih => exact ih (failsOnly_refill only filled).2
  | case4 b cause b' filled =>
    obtain ⟨fails, next⟩ := failsOnly_refill only filled
    refine ⟨?_, next⟩
    rintro cause ⟨⟩
    exact fails _ rfl

theorem failsOnly_parse {α : Type} (only : Source.FailsOnly known b.source)
    (p : Parser UInt8 MemberDefect α) :
    (∀ cause, (b.parse p).1 = .failed cause → known cause) ∧
      Source.FailsOnly known (b.parse p).2.2.source := by
  induction p generalizing b with
  | done value | fail defect | refuse defect => exact ⟨by rintro _ ⟨⟩, only⟩
  | need want next ih =>
    obtain ⟨fails, behind⟩ := failsOnly_nextByte only want
    rw [parse]
    generalize b.nextByte want = fetched at fails behind ⊢
    obtain ⟨result, b'⟩ := fetched
    cases result with
    | byte c =>
      dsimp only
      split
      · exact ⟨by rintro _ ⟨⟩, behind⟩
      · exact ih c behind
    | ended | panicked => exact ⟨by rintro _ ⟨⟩, behind⟩
    | failed cause =>
      refine ⟨?_, behind⟩
      rintro cause ⟨⟩
      exact fails _ rfl

end Buffered

/-! ## Failures of members -/

/-- The source that is held fails with these causes only. -/
def Holding.FailsOnly (known : IoError → Prop) : Holding σ → Prop
  | .between b | .inside _ b => Source.FailsOnly known b.source
  | .lost => True

/-- A failure that a request has come to is one of these or the decoder's own. -/
inductive Outcome.FailsOnly (known : IoError → Prop) : Outcome σ → Prop
  | result {result : ReadResult} {holding : Holding σ}
      (fails : ∀ cause, result = .failed cause → known cause ∨ cause.FromDecoder)
      (only : holding.FailsOnly known) : FailsOnly known (.result result holding)
  | ended {b : Buffered σ} (only : Source.FailsOnly known b.source) : FailsOnly known (.ended b)
  | lostSource : FailsOnly known .lostSource

variable {b b' : Buffered σ} {n : Nat}

theorem Outcome.FailsOnly.failed {cause : IoError} {holding : Holding σ}
    (blames : known cause ∨ cause.FromDecoder) (only : holding.FailsOnly known) :
    (Outcome.result (.failed cause) holding).FailsOnly known := by
  refine .result ?_ only
  rintro cause ⟨⟩
  exact blames

theorem failsOnly_readTrailer (only : Source.FailsOnly known b.source)
    (p : Parser UInt8 MemberDefect Unit) : (readTrailer p b).FailsOnly known := by
  obtain ⟨fails, behind⟩ := Buffered.failsOnly_parse only p
  rw [readTrailer]
  generalize b.parse p = parsed at fails behind ⊢
  obtain ⟨result, p', b'⟩ := parsed
  cases result with
  | done => exact .ended behind
  | defect defect => exact .failed (.inr (.defect defect)) behind
  | ended => exact .failed (.inr .endedInFrame) behind
  | failed cause => exact .failed (.inl (fails cause rfl)) behind
  | panicked => exact .result (by rintro _ ⟨⟩) behind

theorem failsOnly_readBody (only : Source.FailsOnly known b.source) (z : Inflater) :
    (readBody z b n).FailsOnly known := by
  fun_induction readBody z b n with
  | case1 z b slice b' filled =>
    exact .failed (.inr .corruptBody) (Buffered.failsOnly_fillBuffer only filled).2
  | case2 z b slice b' filled | case6 z b slice b' filled =>
    exact .result (by rintro _ ⟨⟩) (Buffered.failsOnly_fillBuffer only filled).2
  | case3 z b slice b' filled output z' rest =>
    have behind := (Buffered.failsOnly_fillBuffer only filled).2
    exact failsOnly_readTrailer (b := { b' with buffer := rest }) behind (trailerOf z'.history)
  | case4 z b b' output z' rest none filled =>
    exact .failed (.inr .endedInBody) (Buffered.failsOnly_fillBuffer only filled).2
  | case5 z b slice b' filled output z' rest none nonempty _ inflated ih =>
    exact ih (Buffered.failsOnly_fillBuffer only filled).2
  | case7 z b result b' other filled =>
    obtain ⟨fails, behind⟩ := Buffered.failsOnly_fillBuffer only filled
    exact .result (fun cause failed => .inl (fails cause failed)) behind

theorem failsOnly_readHeader (only : Source.FailsOnly known b.source)
    (p : Parser UInt8 MemberDefect Unit) : (readHeader p b n).FailsOnly known := by
  obtain ⟨fails, behind⟩ := Buffered.failsOnly_parse only p
  rw [readHeader]
  generalize b.parse p = parsed at fails behind ⊢
  obtain ⟨result, p', b'⟩ := parsed
  cases result with
  | done => exact failsOnly_readBody behind _
  | defect defect => exact .failed (.inr (.defect defect)) behind
  | ended => exact .failed (.inr .endedInFrame) behind
  | failed cause => exact .failed (.inl (fails cause rfl)) behind
  | panicked => exact .result (by rintro _ ⟨⟩) behind

theorem failsOnly_openMember (only : Source.FailsOnly known b.source) :
    (openMember b n).FailsOnly known := by
  obtain ⟨fails, behind⟩ := Buffered.failsOnly_parse only MemberHeader.read
  rw [openMember]
  generalize b.parse MemberHeader.read = parsed at fails behind ⊢
  obtain ⟨result, p', b'⟩ := parsed
  cases result with
  | done => exact failsOnly_readBody behind _
  | defect defect => exact .failed (.inr (.defect defect)) behind
  | ended => exact .failed (.inr .endedInFrame) behind
  | failed cause =>
    dsimp only
    split
    · exact failsOnly_readHeader behind p'
    · exact .failed (.inl (fails cause rfl)) behind
  | panicked => exact .lostSource

theorem failsOnly_readInside (only : Source.FailsOnly known b.source) (stage : Stage) :
    (readInside stage b n).FailsOnly known := by
  cases stage with
  | header p => exact failsOnly_readHeader only p
  | body z => exact failsOnly_readBody only z
  | trailer p => exact failsOnly_readTrailer only p

theorem failsOnly_skipPadding (only : Source.FailsOnly known b.source) :
    (∀ cause, (skipPadding b).1 = .failed cause → known cause) ∧
      Source.FailsOnly known (skipPadding b).2.source := by
  fun_induction skipPadding b with
  | case1 b b' filled | case2 b c bytes b' filled | case4 b cause b' filled | case6 b b' filled =>
    exact ⟨by rintro _ ⟨⟩, (Buffered.failsOnly_fillBuffer only filled).2⟩
  | case3 b c bytes b' filled padding ends ih =>
    exact ih (Buffered.failsOnly_fillBuffer only filled).2
  | case5 b cause b' filled =>
    obtain ⟨fails, behind⟩ := Buffered.failsOnly_fillBuffer only filled
    refine ⟨?_, behind⟩
    rintro cause ⟨⟩
    exact fails _ rfl

theorem failsOnly_findMember (only : Source.FailsOnly known b.source) (started : Nat) :
    (∀ cause, (findMember b started).1 = .failed cause → known cause) ∧
      Source.FailsOnly known (findMember b started).2.source := by
  rw [findMember]
  split
  · split
    all_goals
      next filled =>
        obtain ⟨fails, behind⟩ := Buffered.failsOnly_fillBuffer only filled
        refine ⟨?_, behind⟩
        rintro cause ⟨⟩
        try exact fails _ rfl
  · exact failsOnly_skipPadding only

namespace Members

theorem failsOnly_readNext (only : Source.FailsOnly known b.source) (started : Nat) :
    (∀ cause, (readNext b started n).1 = .failed cause → known cause ∨ cause.FromDecoder) ∧
      (readNext b started n).2.holding.FailsOnly known := by
  fun_induction readNext b started n with
  | case1 b started b' search result holding opened =>
    have behind := (failsOnly_findMember only started).2
    rw [search] at behind
    have outcome := failsOnly_openMember (n := n) behind
    rw [opened] at outcome
    cases outcome with
    | result fails only => exact ⟨fails, only⟩
  | case2 b started b' search b'' opened ih =>
    have behind := (failsOnly_findMember only started).2
    rw [search] at behind
    have outcome := failsOnly_openMember (n := n) behind
    rw [opened] at outcome
    cases outcome with
    | ended only => exact ih only
  | case3 b started b' search opened => exact ⟨by rintro _ ⟨⟩, trivial⟩
  | case4 b started b' search | case5 b started cause b' search | case7 b started b' search =>
    have behind := (failsOnly_findMember only started).2
    rw [search] at behind
    exact ⟨by rintro _ ⟨⟩, behind⟩
  | case6 b started cause b' search =>
    obtain ⟨fails, behind⟩ := failsOnly_findMember only started
    rw [search] at fails behind
    refine ⟨?_, behind⟩
    rintro cause ⟨⟩
    exact .inl (fails _ rfl)

theorem failsOnly_read {m : Members σ} (only : m.holding.FailsOnly known) :
    (∀ cause, (m.read n).1 = .failed cause → known cause ∨ cause.FromDecoder) ∧
      (m.read n).2.holding.FailsOnly known := by
  unfold read
  split
  · exact ⟨by rintro _ ⟨⟩, only⟩
  · split
    · exact ⟨by rintro _ ⟨⟩, trivial⟩
    · exact ⟨by rintro _ ⟨⟩, only⟩
    · exact failsOnly_readNext only _
    · next stage b started finished =>
      have outcome := failsOnly_readInside (n := n) only stage
      generalize readInside stage b n = result at outcome ⊢
      cases outcome with
      | result fails only => exact ⟨fails, only⟩
      | ended only => exact failsOnly_readNext only started
      | lostSource => exact ⟨by rintro _ ⟨⟩, trivial⟩

/-- A decoder fails with what its source fails with, and in its own ways. -/
theorem failsOnly {m : Members σ} (only : m.holding.FailsOnly known) :
    Source.FailsOnly (fun cause => known cause ∨ cause.FromDecoder) m :=
  ⟨fun m => m.holding.FailsOnly known, fun _ _ kept => failsOnly_read kept, only⟩

/-- In front of a source that does not fail every failure is the decoder's own. -/
theorem fromDecoder_of_unfailing {s : σ} (unfailing : Source.Unfailing s) (capacity : Nat) :
    Source.FailsOnly IoError.FromDecoder (new ⟨s, capacity, []⟩) := by
  have only : (new ⟨s, capacity, []⟩).holding.FailsOnly fun _ => False := unfailing
  obtain ⟨keeps, closed, kept⟩ := failsOnly only
  refine ⟨keeps, fun m n kept => ?_, kept⟩
  obtain ⟨fails, next⟩ := closed m n kept
  exact ⟨fun cause failed => (fails cause failed).resolve_left id, next⟩

end Members

end Sources

end ParallelGzip
