import ParallelGzip.Proofs.Stream.Serves

set_option autoImplicit false

/-! # Sources that break off

A source that breaks off serves its data and fails behind it; it never comes to an end. The same
source with its failures muted serves the data and ends. The two do the same up to the failure, and
so do buffers in front of them, and parsers that run on the buffers: what is known of a source that
serves its data can be read off the one and holds of the other, as long as it does not fail. -/

namespace ParallelGzip

/-! ## Breaking off -/

namespace Source

/-- What may be the answer to a request for `n` bytes by a source that has `data` still to serve,
    will fail with `cause` behind it, and interrupts so many requests at most; `keeps` tells what the
    source has left. -/
inductive Breaks {σ : Type} (keeps : σ → Bytes → Nat → Prop) (cause : IoError) (n : Nat) :
    Bytes → Nat → ReadResult × σ → Prop
  | piece {s : σ} {bytes later : Bytes} {refusals refusals' : Nat} (some : bytes ≠ [])
      (fits : bytes.length ≤ n) (fewer : refusals' ≤ refusals) (next : keeps s later refusals') :
      Breaks keeps cause n (bytes ++ later) refusals (.delivered bytes, s)
  | nothing {s : σ} {data : Bytes} {refusals refusals' : Nat} (zero : n = 0)
      (fewer : refusals' ≤ refusals) (next : keeps s data refusals') :
      Breaks keeps cause n data refusals (.delivered [], s)
  | interrupted {s : σ} {data : Bytes} {refusals refusals' : Nat} {cause' : IoError}
      (kind : cause'.kind = .interrupted) (fewer : refusals' < refusals)
      (next : keeps s data refusals') : Breaks keeps cause n data refusals (.interrupted cause', s)
  | failed {s : σ} {refusals : Nat} : Breaks keeps cause n [] refusals (.failed cause, s)

/-- What may be the answer of a source that never comes to an end and fails with nothing but
    these. -/
inductive Stops {σ : Type} (keeps : σ → Prop) (known : IoError → Prop) : ReadResult × σ → Prop
  | delivered {s : σ} {bytes : Bytes} (some : bytes ≠ []) (next : keeps s) :
      Stops keeps known (.delivered bytes, s)
  | interrupted {s : σ} {cause : IoError} (next : keeps s) :
      Stops keeps known (.interrupted cause, s)
  | failed {s : σ} {cause : IoError} (fails : known cause) : Stops keeps known (.failed cause, s)

variable {σ : Type} [Source σ]

/-- The source serves `data`, in pieces of any sizes, fails with `cause` behind it, and interrupts
    so many requests at most. -/
def BreaksOff (s : σ) (data : Bytes) (cause : IoError) (refusals : Nat) : Prop :=
  ∃ keeps : σ → Bytes → Nat → Prop,
    (∀ s data refusals n, keeps s data refusals →
      Breaks keeps cause n data refusals (Source.read s n)) ∧
    keeps s data refusals

/-- The source does not come to an end: whoever asks it for something gets it, can try again, or
    meets one of these failures. -/
def StopsWith (known : IoError → Prop) (s : σ) : Prop :=
  ∃ keeps : σ → Prop, (∀ s n, keeps s → 0 < n → Stops keeps known (Source.read s n)) ∧ keeps s

variable {s : σ} {data : Bytes} {cause : IoError} {refusals n : Nat} {known : IoError → Prop}

theorem BreaksOff.read (breaks : BreaksOff s data cause refusals) (n : Nat) :
    Breaks (BreaksOff · · cause ·) cause n data refusals (Source.read s n) := by
  obtain ⟨keeps, answers, kept⟩ := breaks
  have answer := answers s data refusals n kept
  generalize Source.read s n = result at answer ⊢
  cases answer with
  | piece some fits fewer next => exact .piece some fits fewer ⟨keeps, answers, next⟩
  | nothing zero fewer next => exact .nothing zero fewer ⟨keeps, answers, next⟩
  | interrupted kind fewer next => exact .interrupted kind fewer ⟨keeps, answers, next⟩
  | failed => exact .failed

theorem StopsWith.read (stops : StopsWith known s) (pos : 0 < n) :
    Stops (StopsWith known) known (Source.read s n) := by
  obtain ⟨keeps, answers, kept⟩ := stops
  have answer := answers s n kept pos
  generalize Source.read s n = result at answer ⊢
  cases answer with
  | delivered some next => exact .delivered some ⟨keeps, answers, next⟩
  | interrupted next => exact .interrupted ⟨keeps, answers, next⟩
  | failed fails => exact .failed fails

theorem StopsWith.answered {answer : ReadResult × σ} (stops : StopsWith known s) (pos : 0 < n)
    (answered : Source.read s n = answer) : Stops (StopsWith known) known answer :=
  answered ▸ stops.read pos

theorem BreaksOff.stopsWith (breaks : BreaksOff s data cause refusals) :
    StopsWith (· = cause) s := by
  refine ⟨fun s => ∃ data refusals, BreaksOff s data cause refusals, ?_, data, refusals, breaks⟩
  rintro s n ⟨data, refusals, breaks⟩ pos
  have answer := breaks.read n
  generalize Source.read s n = result at answer ⊢
  cases answer with
  | piece some fits fewer next => exact .delivered some ⟨_, _, next⟩
  | nothing zero => exact absurd zero (Nat.ne_of_gt pos)
  | interrupted kind fewer next => exact .interrupted ⟨_, _, next⟩
  | failed => exact .failed rfl

end Source

/-! ## Muted sources -/

/-- A source whose first failure is taken for the end. -/
structure Muted (σ : Type) where
  source : σ
  /-- Whether it has failed. -/
  silent : Bool

namespace Muted

variable {σ : Type} [Source σ]

/-- Ask for at most `n` bytes. -/
def read (m : Muted σ) (n : Nat) : ReadResult × Muted σ :=
  if m.silent then (.delivered [], m)
  else
    match Source.read m.source n with
    | (.failed _, s) => (.delivered [], ⟨s, true⟩)
    | (result, s) => (result, ⟨s, false⟩)

instance : Source (Muted σ) where
  read := read
  supply m := Source.supply m.source
  patience m := Source.patience m.source
  supply_read m n := by
    have bound := Source.supply_read m.source n
    rw [read]
    split
    · exact Nat.le_refl _
    · split <;> next answer => rw [answer] at bound; exact bound
  patience_read m n cause interrupted := by
    have bound := Source.patience_read m.source n
    rw [read] at interrupted ⊢
    split at interrupted
    · cases interrupted
    · next going =>
      rw [if_neg going]
      split at interrupted
      · cases interrupted
      · next answer =>
        rw [answer] at bound
        exact bound interrupted

end Muted

/-- An answer that is neither the end nor a failure. -/
inductive ReadResult.Goes : ReadResult → Prop
  | delivered {bytes : Bytes} (some : bytes ≠ []) : Goes (.delivered bytes)
  | interrupted (cause : IoError) : Goes (.interrupted cause)

namespace Source

variable {σ : Type} [Source σ] {s : σ} {data : Bytes} {cause : IoError} {refusals n : Nat}
  {known : IoError → Prop}

/-- The source, with its failure to be muted. -/
def mute (s : σ) : Muted σ := ⟨s, false⟩

theorem read_mute (s : σ) (n : Nat) :
    Source.read (mute s) n =
      match Source.read s n with
      | (.failed _, s') => (.delivered [], ⟨s', true⟩)
      | (result, s') => (result, mute s') := rfl

/-- A muted source serves what is served before the failure. -/
theorem BreaksOff.serves (breaks : BreaksOff s data cause refusals) :
    Serves (mute s) data refusals := by
  refine ⟨fun m data refusals => (∃ s, m = mute s ∧ BreaksOff s data cause refusals) ∨
    m.silent = true ∧ data = [], ?_, .inl ⟨s, rfl, breaks⟩⟩
  rintro m data refusals n (⟨s, rfl, breaks⟩ | ⟨silent, rfl⟩)
  · have answer := breaks.read n
    rw [read_mute]
    generalize Source.read s n = result at answer ⊢
    cases answer with
    | piece some fits fewer next => exact .piece some fits fewer (.inl ⟨_, rfl, next⟩)
    | nothing zero fewer next => exact .nothing (.inl zero) fewer (.inl ⟨_, rfl, next⟩)
    | interrupted kind fewer next => exact .interrupted kind fewer (.inl ⟨_, rfl, next⟩)
    | failed => exact .nothing (.inr rfl) (Nat.le_refl _) (.inr ⟨rfl, rfl⟩)
  · show Answers _ n [] refusals (Muted.read m n)
    rw [Muted.read, if_pos silent]
    exact .nothing (.inr rfl) (Nat.le_refl _) (.inr ⟨silent, rfl⟩)

end Source

/-! ## Buffers -/

namespace Buffered

variable {σ : Type} [Source σ] {b : Buffered σ} {known : IoError → Prop}

/-- The buffer in front of the muted source. -/
def mute (b : Buffered σ) : Buffered (Muted σ) := ⟨Source.mute b.source, b.capacity, b.buffer⟩

/-- A buffer with room in front of a source that does not come to an end. -/
structure StopsWith (known : IoError → Prop) (b : Buffered σ) : Prop where
  room : 0 < b.capacity
  source : Source.StopsWith known b.source

/-- What is done with a buffer, and what is done in front of the muted source: the source fails, or
    both come to the same and go on. -/
inductive Alike {α : Type} (known : IoError → Prop) (fail : IoError → α) (Goes : α → Prop) :
    α × Buffered σ → α × Buffered (Muted σ) → Prop
  | failed {b : Buffered σ} {cause : IoError} {answer : α × Buffered (Muted σ)}
      (fails : known cause) : Alike known fail Goes (fail cause, b) answer
  | same {value : α} {b : Buffered σ} (goes : Goes value) (next : b.StopsWith known) :
      Alike known fail Goes (value, b) (value, b.mute)

/-- The two, when it is known what the first has come to. -/
theorem Alike.of_eq {α : Type} {fail : IoError → α} {Goes : α → Prop} {done : α × Buffered σ}
    {muted : α × Buffered (Muted σ)} {value : α} (alike : Alike known fail Goes done muted)
    (comes : done = (value, b)) :
    (∃ cause, value = fail cause ∧ known cause) ∨
      (Goes value ∧ b.StopsWith known ∧ muted = (value, b.mute)) := by
  subst comes
  cases alike with
  | failed fails => exact .inl ⟨_, rfl, fails⟩
  | same goes next => exact .inr ⟨goes, next, rfl⟩

theorem StopsWith.refill (stops : b.StopsWith known) {size : Nat} (pos : 0 < size) :
    Alike known ReadResult.failed ReadResult.Goes (b.refill size) (b.mute.refill size) := by
  obtain ⟨source, capacity, buffer⟩ := b
  obtain ⟨room, stops⟩ := stops
  rw [mute, Buffered.refill, Buffered.refill]
  dsimp only at stops room ⊢
  by_cases empty : buffer = []
  · rw [if_pos empty, if_pos empty, Source.read_mute]
    have answer := stops.read pos
    generalize Source.read source size = result at answer ⊢
    cases answer with
    | delivered some next => exact .same (.delivered some) ⟨room, next⟩
    | interrupted next => exact .same (.interrupted _) ⟨room, next⟩
    | failed fails => exact .failed fails
  · rw [if_neg empty, if_neg empty]
    exact .same (.delivered empty) ⟨room, stops⟩

theorem StopsWith.fillBuffer (stops : b.StopsWith known) :
    Alike known ReadResult.failed ReadResult.Goes b.fillBuffer b.mute.fillBuffer :=
  stops.refill stops.room

/-- A buffer that has been filled has been filled in front of the muted source, too. -/
theorem StopsWith.filled {b' : Buffered σ} {bytes : Bytes} (stops : b.StopsWith known)
    (filled : b.fillBuffer = (.delivered bytes, b')) :
    b.mute.fillBuffer = (.delivered bytes, b'.mute) ∧ bytes ≠ [] ∧ b'.StopsWith known := by
  obtain ⟨cause, failed, -⟩ | ⟨goes, next, muted⟩ := stops.fillBuffer.of_eq filled
  · cases failed
  · cases goes with | delivered some => exact ⟨muted, some, next⟩

/-- Whatever is in the buffer. -/
theorem StopsWith.withBuffer (stops : b.StopsWith known) (bytes : Bytes) :
    { b with buffer := bytes }.StopsWith known := ⟨stops.room, stops.source⟩

/-- What comes of a byte: there is one. -/
def ByteResult.Goes (result : ByteResult) : Prop := ∃ c, result = .byte c

theorem StopsWith.nextByte (stops : b.StopsWith known) (want : Nat) :
    Alike known ByteResult.failed ByteResult.Goes (b.nextByte want) (b.mute.nextByte want) := by
  have refilled (b : Buffered σ) (stops : b.StopsWith known) :
      Alike known ReadResult.failed ReadResult.Goes (b.refill (max want b.capacity))
        (b.mute.refill (max want b.mute.capacity)) :=
    stops.refill (Nat.lt_of_lt_of_le stops.room (Nat.le_max_right want b.capacity))
  fun_induction Buffered.nextByte b want with
  | case1 b b' filled =>
    obtain ⟨cause, failed, -⟩ | ⟨goes, -⟩ := (refilled b stops).of_eq filled
    · cases failed
    · cases goes with | delivered some => exact absurd rfl some
  | case2 b c bytes b' filled =>
    obtain ⟨cause, failed, -⟩ | ⟨-, next, muted⟩ := (refilled b stops).of_eq filled
    · cases failed
    · rw [Buffered.nextByte, muted]
      exact .same ⟨c, rfl⟩ (next.withBuffer _)
  | case3 b cause b' filled ih =>
    obtain ⟨cause, failed, -⟩ | ⟨-, next, muted⟩ := (refilled b stops).of_eq filled
    · cases failed
    · rw [Buffered.nextByte.eq_def b.mute, muted]
      exact ih next
  | case4 b cause b' filled =>
    obtain ⟨cause, failed, fails⟩ | ⟨goes, -⟩ := (refilled b stops).of_eq filled
    · cases failed
      exact .failed fails
    · cases goes
  | case5 b b' filled =>
    obtain ⟨cause, failed, -⟩ | ⟨goes, -⟩ := (refilled b stops).of_eq filled
    · cases failed
    · cases goes

/-- What a parser comes to, and what it comes to in front of the muted source. -/
inductive ParsedAlike {ε α : Type} (known : IoError → Prop) :
    ParseResult ε α × Parser UInt8 ε α × Buffered σ →
      ParseResult ε α × Parser UInt8 ε α × Buffered (Muted σ) → Prop
  | failed {p : Parser UInt8 ε α} {b : Buffered σ} {cause : IoError}
      {answer : ParseResult ε α × Parser UInt8 ε α × Buffered (Muted σ)} (fails : known cause) :
      ParsedAlike known (.failed cause, p, b) answer
  | done {value : α} {p : Parser UInt8 ε α} {b : Buffered σ} (next : b.StopsWith known) :
      ParsedAlike known (.done value, p, b) (.done value, p, b.mute)
  | defect {defect : ε} {p : Parser UInt8 ε α} {b : Buffered σ} (next : b.StopsWith known) :
      ParsedAlike known (.defect defect, p, b) (.defect defect, p, b.mute)

theorem StopsWith.parse {ε α : Type} (stops : b.StopsWith known) (p : Parser UInt8 ε α) :
    ParsedAlike known (b.parse p) (b.mute.parse p) := by
  induction p generalizing b with
  | done value => exact .done stops
  | fail defect | refuse defect => exact .defect stops
  | need want next ih =>
    have alike := stops.nextByte want
    rw [Buffered.parse, Buffered.parse]
    generalize b.nextByte want = fetched, b.mute.nextByte want = muted at alike ⊢
    cases alike with
    | failed fails => exact .failed fails
    | same goes later =>
      obtain ⟨c, rfl⟩ := goes
      dsimp only
      split
      · exact .defect later
      · exact ih c later

end Buffered

end ParallelGzip
