import ParallelGzip.Proofs.Aftermath
import ParallelGzip.Proofs.Agreement
import ParallelGzip.Proofs.Truncation

set_option autoImplicit false

/-! # Damage: what is handed over behind a failure

A decoder that has failed stays where the failure has left it (`Members.After`): either every request
fails again, or it goes on with what is behind the member that has been used up, and delivers that,
or tells that the stream has ended. A reader that decodes ahead has its failure in a slot, from which
every request tells it again. `Input.behind_failure` says so of inputs with a worker and without
one. -/

namespace ParallelGzip

/-! ## Behind the first failure -/

namespace Source

variable {σ : Type} [Source σ] {s s' : σ} {cause : IoError} {after : IoError → σ → Prop}

/-- Every request for something fails with this cause or is interrupted, however often the source is
    asked. -/
def Repeats (cause : IoError) (s : σ) : Prop :=
  ∃ keeps : σ → Prop,
    (∀ s n, keeps s →
      (0 < n → (Source.read s n).1 = .failed cause ∨
        ∃ other, (Source.read s n).1 = .interrupted other) ∧
      keeps (Source.read s n).2) ∧
    keeps s

theorem Repeats.read (repeats : Repeats cause s) (n : Nat) :
    (0 < n → (Source.read s n).1 = .failed cause ∨
      ∃ other, (Source.read s n).1 = .interrupted other) ∧
    Repeats cause (Source.read s n).2 := by
  obtain ⟨keeps, again, kept⟩ := repeats
  obtain ⟨fails, next⟩ := again s n kept
  exact ⟨fails, keeps, again, next⟩

/-- The first failure of the source leaves it like this. -/
def FailsInto (after : IoError → σ → Prop) (s : σ) : Prop :=
  ∃ keeps : σ → Prop,
    (∀ s n, keeps s →
      (∃ cause, (Source.read s n).1 = .failed cause ∧ after cause (Source.read s n).2) ∨
        ((∀ cause, (Source.read s n).1 ≠ .failed cause) ∧ keeps (Source.read s n).2)) ∧
    keeps s

theorem FailsInto.read (into : FailsInto after s) (n : Nat) :
    (∃ cause, (Source.read s n).1 = .failed cause ∧ after cause (Source.read s n).2) ∨
      ((∀ cause, (Source.read s n).1 ≠ .failed cause) ∧ FailsInto after (Source.read s n).2) := by
  obtain ⟨keeps, closed, kept⟩ := into
  exact (closed s n kept).imp_right fun ⟨fine, next⟩ => ⟨fine, keeps, closed, next⟩

/-- Reading on to the first failure. -/
theorem FailsInto.of_readOn (into : FailsInto after s) {sizes : List Nat} {bytes : Bytes}
    (failed : readOn s sizes = (bytes, some (.failed cause), s')) : after cause s' := by
  induction sizes generalizing s bytes with
  | nil => cases failed
  | cons n sizes ih =>
    rw [readOn] at failed
    rcases answer : Source.read s n with ⟨result, next⟩
    have reads := into.read n
    rw [answer] at failed reads
    rcases reads with ⟨cause', fails, into⟩ | ⟨fine, into⟩
    · dsimp only at fails
      subst fails
      cases failed
      exact into
    · cases result with
      | delivered chunk =>
        dsimp only at failed
        split at failed
        · cases failed
        · rcases result : readOn next sizes with ⟨later, stop, last⟩
          rw [result] at failed
          cases failed
          exact ih into result
      | interrupted other => exact ih into failed
      | failed cause' => exact absurd rfl (fine cause')
      | panicked => cases failed

/-! ### Buffers and faces -/

section Faces

variable {τ : Type} [Source τ] {face : σ → τ}

theorem Repeats.passedOn (passes : PassesOn face) (repeats : Repeats cause s) :
    Repeats cause (face s) := by
  refine ⟨fun t => ∃ s, t = face s ∧ Repeats cause s, ?_, s, rfl, repeats⟩
  rintro _ n ⟨s, rfl, repeats⟩
  rw [passes s n]
  exact ⟨(repeats.read n).1, _, rfl, (repeats.read n).2⟩

theorem FailsInto.passedOn (passes : PassesOn face) (into : FailsInto after s) :
    FailsInto (fun cause t => ∃ s, t = face s ∧ after cause s) (face s) := by
  refine ⟨fun t => ∃ s, t = face s ∧ FailsInto after s, ?_, s, rfl, into⟩
  rintro _ n ⟨s, rfl, into⟩
  rw [passes s n]
  rcases into.read n with ⟨cause, fails, after⟩ | ⟨fine, next⟩
  · exact .inl ⟨cause, fails, _, rfl, after⟩
  · exact .inr ⟨fine, _, rfl, next⟩

end Faces

/-- Nothing is in a buffer whose source fails each time. -/
theorem Repeats.buffered (repeats : Repeats cause s) {capacity : Nat} (room : 0 < capacity) :
    Repeats cause (⟨s, capacity, []⟩ : Buffered σ) := by
  refine ⟨fun b => ∃ s, b = ⟨s, capacity, []⟩ ∧ Repeats cause s, ?_, s, rfl, repeats⟩
  rintro _ n ⟨s, rfl, repeats⟩
  show (0 < n → (Buffered.read _ n).1 = .failed cause ∨
    ∃ other, (Buffered.read _ n).1 = .interrupted other) ∧
    ∃ s', (Buffered.read _ n).2 = ⟨s', capacity, []⟩ ∧ Repeats cause s'
  rw [Buffered.read]
  dsimp only
  split
  · exact ⟨(repeats.read n).1, _, rfl, (repeats.read n).2⟩
  · obtain ⟨fails, next⟩ := repeats.read capacity
    rw [Buffered.fillBuffer, Buffered.refill, if_pos rfl]
    dsimp only
    rcases answer : Source.read s capacity with ⟨result, s'⟩
    rw [answer] at fails next
    rcases fails room with failed | ⟨other, interrupted⟩
    · dsimp only at failed
      subst failed
      exact ⟨fun _ => .inl rfl, s', rfl, next⟩
    · dsimp only at interrupted
      subst interrupted
      exact ⟨fun _ => .inr ⟨other, rfl⟩, s', rfl, next⟩

/-- A buffer is empty where its source fails. -/
theorem FailsInto.buffered (into : FailsInto after s) (capacity : Nat) :
    FailsInto (fun cause b => ∃ s, b = ⟨s, capacity, []⟩ ∧ after cause s)
      (⟨s, capacity, []⟩ : Buffered σ) := by
  refine ⟨fun b => b.capacity = capacity ∧ FailsInto after b.source, ?_, rfl, into⟩
  rintro ⟨s, size, buffer⟩ n ⟨same, into⟩
  obtain rfl : size = capacity := same
  dsimp only at into
  have reads : Source.read (⟨s, size, buffer⟩ : Buffered σ) n = Buffered.read ⟨s, size, buffer⟩ n :=
    rfl
  rw [reads, Buffered.read]
  dsimp only
  split
  -- a large request goes past the buffer
  · next past =>
    obtain ⟨rfl, -⟩ := past
    rcases into.read n with ⟨cause, fails, after⟩ | ⟨fine, next⟩
    · exact .inl ⟨cause, fails, _, rfl, after⟩
    · exact .inr ⟨fine, rfl, next⟩
  · rw [Buffered.fillBuffer, Buffered.refill]
    dsimp only
    by_cases empty : buffer = []
    · subst empty
      rw [if_pos rfl]
      have reads := into.read size
      rcases answer : Source.read s size with ⟨result, s'⟩
      rw [answer] at reads
      rcases reads with ⟨cause, fails, after⟩ | ⟨fine, next⟩
      · dsimp only at fails
        subst fails
        exact .inl ⟨cause, rfl, s', rfl, after⟩
      · cases result with
        | delivered bytes => exact .inr ⟨by simp, rfl, next⟩
        | interrupted cause => exact .inr ⟨by simp, rfl, next⟩
        | failed cause => exact absurd rfl (fine cause)
        | panicked => exact .inr ⟨by simp, rfl, next⟩
    · rw [if_neg empty]
      exact .inr ⟨by simp, rfl, into⟩

end Source

/-! ### Decoders -/

namespace Members

variable {σ : Type} [Source σ] {m : Members σ} {data : Bytes} {refusals : Nat} {cause : IoError}

theorem Before.holds (before : m.Before data refusals) : m.Holds data refusals := by
  obtain ⟨holding, started, finished⟩ := m
  obtain ⟨-, before⟩ := before
  cases holding with
  | between b => exact before.holds
  | inside stage b => exact before.2.holds
  | lost => exact before.elim

theorem Before.unfailing (before : m.Before data refusals) :
    m.holding.FailsOnly fun _ => False := by
  obtain ⟨holding, started, finished⟩ := m
  obtain ⟨-, before⟩ := before
  cases holding with
  | between b => exact before.unfailing
  | inside stage b => exact before.2.unfailing
  | lost => trivial

/-- A request that has failed has not been refused. -/
theorem Before.not_passing {n : Nat} {m' : Members σ} (before : m.Before data refusals)
    (failed : Source.read m n = (.failed cause, m')) : ¬cause.Passing := by
  have fails := (failsOnly_read (n := n) before.unfailing).1
  rw [show m.read n = _ from failed] at fails
  exact ((fails cause rfl).resolve_left id).not_passing

/-- A decoder that has nothing to do but to fail. -/
structure Stuck (cause : IoError) (m : Members σ) : Prop where
  told : ∃ data refusals members,
    m.Holds data refusals ∧ m.verdict data = ⟨[], some cause, members⟩
  before : ∃ data refusals, m.Before data refusals ∧ m.aftermath data = .stuck

theorem Stuck.read {n : Nat} (stuck : m.Stuck cause) (pos : 0 < n) :
    ((Source.read m n).1 = .failed cause ∨ ∃ other, (Source.read m n).1 = .interrupted other) ∧
      Stuck cause (Source.read m n).2 := by
  obtain ⟨data, refusals, members, holds, told⟩ := stuck.told
  obtain ⟨data', refusals', before, found⟩ := stuck.before
  have answers := holds.read pos
  have leaves := before.leaves pos
  rw [told] at answers
  rw [found] at leaves
  rcases answer : Source.read m n with ⟨result, m'⟩
  rw [answer] at answers leaves
  cases answers with
  | delivered some fewer holds whole =>
    have none := congrArg Verdict.payload whole
    exact absurd (List.append_eq_nil_iff.1 none.symm).1 some
  | refused passing fewer holds whole =>
    cases passing with
    | interrupted passing =>
      cases leaves with
      | going fine next same =>
        exact ⟨.inr ⟨_, rfl⟩, ⟨_, _, _, holds, whole.symm⟩, _, _, next, same.symm⟩
    | failed passing => exact absurd passing (before.not_passing answer)
  | failed final failure members complete =>
    cases failure
    cases leaves with
    | going fine => exact absurd rfl (fine cause)
    | stuck next _ still again =>
      exact ⟨.inl rfl, ⟨_, _, _, next.holds, again⟩, _, _, next, still⟩
    | spent next used => cases used
  | ended atEnd ends => cases ends

theorem Stuck.repeats (stuck : m.Stuck cause) : Source.Repeats cause m := by
  refine ⟨Stuck cause, ?_, stuck⟩
  intro m n stuck
  by_cases pos : 0 < n
  · exact ⟨fun _ => (stuck.read pos).1, (stuck.read pos).2⟩
  · obtain rfl := Nat.eq_zero_of_not_pos pos
    exact ⟨fun pos => absurd pos (Nat.lt_irrefl 0), stuck⟩

/-- A decoder about to look for the next member of `rest`, with so many members opened. -/
def Resumes (started : Nat) (rest : Bytes) (refusals : Nat) (m : Members σ) : Prop :=
  ∃ b : Buffered σ, m = ⟨.between b, started, false⟩ ∧ b.Before rest refusals

/-- How a first failure leaves a decoder. -/
def After (verdict : Verdict) (aftermath : Aftermath) (refusals : Nat) (cause : IoError)
    (m : Members σ) : Prop :=
  verdict.failure = some cause ∧
    match aftermath with
    | .stuck => m.Stuck cause
    | .spent rest => m.Resumes verdict.members rest refusals
    | .ended _ => False

theorem Before.failsInto (before : m.Before data refusals) :
    Source.FailsInto (After (m.verdict data) (m.aftermath data) refusals) m := by
  -- what is told and what becomes of the data are kept side by side
  let keeps : Members σ → Prop := fun m' => m'.AtEnd ∨
    ((∃ data' refusals', m'.Holds data' refusals' ∧
      (m'.verdict data').failure = (m.verdict data).failure ∧
      (m'.verdict data').members = (m.verdict data).members) ∧
    ∃ data', m'.Before data' refusals ∧ m'.aftermath data' = m.aftermath data)
  refine ⟨keeps, ?_, .inr ⟨⟨data, refusals, before.holds, rfl, rfl⟩, data, before, rfl⟩⟩
  rintro m' n (atEnd | ⟨⟨data', refusals', holds, failure, members⟩, data'', before, same⟩)
  · rw [atEnd.read]
    exact .inr ⟨nofun, .inl atEnd⟩
  by_cases zero : n = 0
  · subst zero
    exact .inr ⟨nofun, .inr ⟨⟨data', refusals', holds, failure, members⟩, data'', before, same⟩⟩
  have answers := holds.read (Nat.pos_of_ne_zero zero)
  have leaves := before.leaves (Nat.pos_of_ne_zero zero)
  rcases answer : Source.read m' n with ⟨result, next⟩
  rw [answer] at answers leaves
  rw [same] at leaves
  cases leaves with
  | going fine before' same' =>
    refine .inr ⟨fine, ?_⟩
    cases answers with
    | delivered some fewer holds' whole | refused passing fewer holds' whole =>
      rw [whole] at failure members
      exact .inr ⟨⟨_, _, holds', failure, members⟩, _, before', same'.symm⟩
    | failed => exact absurd rfl (fine _)
    | ended atEnd => exact .inl atEnd
  | ended atEnd => exact .inr ⟨nofun, .inl atEnd⟩
  | stuck before' found still again =>
    cases answers with
    | refused passing =>
      cases passing with
      | failed passing => exact absurd passing (before.not_passing answer)
    | failed final failure' members' complete =>
      refine .inl ⟨_, rfl, failure.symm.trans failure', ?_⟩
      rw [found]
      exact ⟨⟨_, _, _, before'.holds, again⟩, _, _, before', still⟩
  | spent before' used =>
    cases answers with
    | refused passing =>
      cases passing with
      | failed passing => exact absurd passing (before.not_passing answer)
    | failed final failure' members' complete =>
      refine .inl ⟨_, rfl, failure.symm.trans failure', ?_⟩
      rw [used]
      exact ⟨_, by rw [← members, ← members'], before'⟩

end Members

/-! ## Inputs -/

section Inputs

variable {σ : Type} [Source σ] {files : Files} {provider : Provider σ} {origin : Origin σ}
  {options : ReaderOptions} {data : Bytes} {refusals started : Nat} {input input' : Input σ}

namespace Input

/-- An input that decodes on demand, and is about to look for the next member of `data`. -/
def Before (started : Nat) (data : Bytes) (refusals : Nat) (input : Input σ) : Prop :=
  ∃ (m : Members (Origin σ)) (capacity : Nat), 0 < capacity ∧ m.Resumes started data refusals ∧
    input = .onDemand ⟨m, capacity, []⟩

/-- Where an input starts that decodes on demand. -/
theorem exists_before_of_open (provides : files.openProvider provider = .ok origin)
    (valid : options.validate = .ok ()) (disabled : options.threads.isDisabled = true)
    (serves : Source.Serves origin data refusals) (unfailing : Source.Unfailing origin) :
    ∃ input, Input.open files provider options = .done input ∧ input.Before 0 data refusals := by
  have some := (ReaderOptions.validate_eq_ok_iff.1 valid).1
  have holds : (⟨origin, fetchCapacity, []⟩ : Buffered (Origin σ)).Holds data refusals :=
    ⟨data, rfl, serves, .inl (show 0 < fetchCapacity by decide)⟩
  exact ⟨_, open_eq_onDemand provides valid disabled, _, options.blockSize,
    Nat.pos_of_ne_zero some, ⟨_, rfl, holds, unfailing⟩, rfl⟩

/-- An input hands over what the members of the data before it give. -/
theorem Before.readsOut (before : input.Before started data refusals) :
    Source.ReadsOut input (verdictOn started data).payload (verdictOn started data).failure
      ((verdictOn started data).payload.length + refusals) := by
  obtain ⟨m, capacity, room, ⟨b, rfl, before⟩, rfl⟩ := before
  have holds : (⟨.between b, started, false⟩ : Members (Origin σ)).Holds data refusals :=
    before.holds
  have only : (⟨.between b, started, false⟩ : Members (Origin σ)).holding.FailsOnly fun _ => False :=
    before.unfailing
  obtain ⟨keeps, closed, kept⟩ := Members.failsOnly only
  have own : Source.FailsOnly IoError.FromDecoder
      (⟨.between b, started, false⟩ : Members (Origin σ)) :=
    ⟨keeps, fun m n kept => ⟨fun cause failed => ((closed m n kept).1 cause failed).resolve_left id,
      (closed m n kept).2⟩, kept⟩
  exact (((holds.tells own).buffered room).passedOn passesOn_onDemand).readsOut

/-- How a first failure leaves an input. -/
theorem Before.of_failed {sizes : List Nat} {bytes : Bytes} {cause : IoError}
    (before : input.Before started data refusals)
    (failed : Source.readOn input sizes = (bytes, some (.failed cause), input')) :
    (verdictOn started data).failure = some cause ∧
      match aftermathOn started data with
      | .stuck => Source.Repeats cause input'
      | .spent rest => input'.Before (verdictOn started data).members rest refusals
      | .ended _ => False := by
  obtain ⟨m, capacity, room, ⟨b, rfl, before⟩, rfl⟩ := before
  have stands : (⟨.between b, started, false⟩ : Members (Origin σ)).Before data refusals :=
    ⟨rfl, before⟩
  have into := (stands.failsInto.buffered capacity).passedOn passesOn_onDemand
  obtain ⟨_, rfl, m, rfl, fails, after⟩ := into.of_readOn failed
  refine ⟨fails, ?_⟩
  have same : Members.aftermath ⟨.between b, started, false⟩ data = aftermathOn started data := rfl
  rw [same] at after
  generalize aftermathOn started data = aftermath at after ⊢
  cases aftermath with
  | ended => exact after
  | spent rest => exact ⟨m, capacity, room, after, rfl⟩
  | stuck => exact (after.repeats.buffered room).passedOn passesOn_onDemand

end Input

end Inputs

/-! ## Readers that decode ahead -/

/-- An error is told only when nothing is left. -/
theorem ReadRequest.Fits.failed {left : Bytes} {failure? : Option Error} {failure : Error}
    {q : ReadRequest} (fits : q.Fits left failure? (.error failure)) :
    left = [] ∧ failure? = some failure := by
  have delivers : ∀ {n : Nat}, Delivers left failure? n (.error failure) →
      left = [] ∧ failure? = some failure := by
    intro n fits
    rw [Delivers] at fits
    split at fits
    · next none =>
      cases failure? with
      | none => cases fits
      | some other =>
        cases fits
        exact ⟨none, rfl⟩
    · obtain ⟨bytes, told, -⟩ := fits
      cases told
  cases q with
  | read n =>
    rw [Fits] at fits
    split at fits
    · cases fits
    · exact delivers fits
  | look => exact delivers fits
  | consume n =>
    obtain ⟨bytes, told, -⟩ := fits
    cases told

/-- With nothing left, the failure is told to every request for a chunk. -/
theorem ReadRequest.Fits.of_nothing_left {failure : Error} {answer : Except Error Bytes}
    {q : ReadRequest} (fits : q.Fits [] (some failure) answer) (fills : q.fills = true) :
    answer = .error failure := by
  cases q with
  | read n =>
    rw [Fits, if_neg (bne_iff_ne.1 fills), Delivers, if_pos rfl] at fits
    exact fits
  | look =>
    rw [Fits, Delivers, if_pos rfl] at fits
    exact fits
  | consume n => cases fills

/-- A failure that has been told is told again. -/
theorem Transcript.Sound.repeats {bytes : Bytes} {failure? : Option Error}
    {earlier later : Transcript} {q q' : ReadRequest} {failure : Error}
    {answer : Except Error Bytes}
    (sound : Transcript.Sound bytes failure? (earlier ++ (q, .error failure) :: later))
    (asked : (q', answer) ∈ later) (fills : q'.fills = true) : answer = .error failure := by
  obtain ⟨left, ahead, fits⟩ := sound.fits earlier q _ later rfl
  obtain ⟨rfl, rfl⟩ := fits.failed
  rw [List.append_nil] at ahead
  have fits := sound.nothing_left ahead.symm asked
  exact fits.of_nothing_left fills

/-! ## A header that cannot be read -/

/-- Ten bytes that are no header. -/
def noHeader : Bytes := List.replicate 10 0xff

theorem verdictOn_noHeader (rest : Bytes) :
    verdictOn 0 (noHeader ++ rest) = ⟨[], some MemberDefect.header.toIo, 1⟩ := by
  have begins : beginning 0 (noHeader ++ rest) = noHeader ++ rest := rfl
  have refused : MemberHeader.read.reading (noHeader ++ rest) = .defect .header := rfl
  rw [verdictOn_of_ne_nil (begins ▸ List.cons_ne_nil _ _), begins, Prospect.ofHeader, refused]
  rfl

theorem aftermathOn_noHeader (rest : Bytes) : aftermathOn 0 (noHeader ++ rest) = .spent rest := by
  have begins : beginning 0 (noHeader ++ rest) = noHeader ++ rest := rfl
  have refused : MemberHeader.read.reading (noHeader ++ rest) = .defect .header := rfl
  rw [aftermathOn_of_ne_nil (begins ▸ List.cons_ne_nil _ _), begins, Aftermath.ofHeader, refused]
  rfl

/-! ## Behind a failure -/

namespace Input

/-- What requests come to behind a failure. With a worker a failure that has been told is told again
    by every request for bytes, whatever the source and whatever the order of the steps. Without one
    it depends on the failure. Damaged or missing compressed data is found again by every request,
    and so is a missing part of a trailer. A header that cannot be read and a wrong trailer use up
    their member: the input goes on with what is behind it as it does with any stream, and so hands
    that over, or comes to the end. -/
theorem behind_failure {σ : Type} [Source σ] {files : Files} {provider : Provider σ}
    {origin : Origin σ} {options : ReaderOptions}
    (provides : files.openProvider provider = .ok origin) (valid : options.validate = .ok ()) :
    (options.threads.isDisabled = false → ∀ r, Reader.open origin options = .done r →
      Input.open files provider options = .done (.ahead r) ∧
      ∀ session, Relation.ReflTransGen Session.Step (Session.start r) session →
        ∀ earlier q failure later, session.answered = earlier ++ (q, .error failure) :: later →
          ∀ q' answer, (q', answer) ∈ later → q'.fills = true → answer = .error failure) ∧
    (options.threads.isDisabled = true → ∀ data refusals, Source.Serves origin data refusals →
      Source.Unfailing origin →
        ∃ input, Input.open files provider options = .done input ∧ input.Before 0 data refusals) ∧
    ∀ started data refusals (input : Input σ), input.Before started data refusals →
      Source.ReadsOut input (verdictOn started data).payload (verdictOn started data).failure
        ((verdictOn started data).payload.length + refusals) ∧
      ∀ sizes bytes cause input',
        Source.readOn input sizes = (bytes, some (.failed cause), input') →
          match aftermathOn started data with
          | .stuck => (∀ defect : MemberDefect, cause ≠ defect.toIo) ∧ Source.Repeats cause input'
          | .spent rest => (cause ≠ corruptBody ∧ cause ≠ endedInBody) ∧
              input'.Before (verdictOn started data).members rest refusals
          | .ended _ => False := by
  refine ⟨?ahead, ?onDemand, ?behind⟩
  case ahead =>
    intro enabled r opened
    refine ⟨open_eq_ahead provides valid enabled opened, ?_⟩
    intro session reached earlier q failure later same q' answer asked fills
    obtain ⟨rfl, room⟩ := Reader.new_of_open opened
    have follows := Session.follows_of_reaches (Session.follows_start room) reached
    have sound := follows.sound
    rw [same] at sound
    exact sound.repeats asked fills
  case onDemand =>
    intro disabled data refusals serves unfailing
    exact exists_before_of_open provides valid disabled serves unfailing
  case behind =>
    intro started data refusals input before
    refine ⟨before.readsOut, ?_⟩
    intro sizes bytes cause input' failed
    obtain ⟨fails, after⟩ := before.of_failed failed
    have blames := blames_aftermathOn fails
    generalize aftermathOn started data = aftermath at after blames ⊢
    cases aftermath with
    | ended => exact after
    | spent | stuck => exact ⟨blames, after⟩

/-- Bytes that are no header, and a member behind them. Without a worker every failure is that of the
    header, and leaves the input in front of the member; with workers a failure of one read is that
    of the next one. -/
theorem behind_failure_noHeader :
    let rest := (PaddedMember.stored [98] 0).bytes
    let source : Scheduled := ⟨noHeader ++ rest, [.interrupted]⟩
    let provider : Provider Scheduled := .stream source
    let plain : ReaderOptions := { threads := .fixed 0 }
    let ahead : ReaderOptions := { threads := .fixed 2, blockSize := 3, queueSize := 1 }
    let r : Reader (Origin Scheduled) := .new (.stream source) 3 1
    let (first, r') := Session.call r (.read 8)
    let (second, _) := Session.call r' (.read 8)
    Files.openProvider {} provider = .ok (.stream source) ∧
      plain.validate = .ok () ∧ ahead.validate = .ok () ∧
      (∃ input, Input.open {} provider plain = .done input ∧
        ∀ sizes bytes cause input',
          Source.readOn input sizes = (bytes, some (.failed cause), input') →
            (cause ≠ corruptBody ∧ cause ≠ endedInBody) ∧ input'.Before 1 rest 1) ∧
      Input.open {} provider ahead = .done (.ahead r) ∧
      ∀ failure, first = .error failure → second = .error failure := by
  intro rest source provider plain ahead r
  have provides : Files.openProvider {} provider = .ok (.stream source) := rfl
  have serves : Source.Serves (Origin.stream source) (noHeader ++ rest) 1 :=
    source.serves.passedOn Origin.passesOn_stream
  have quiet : Source.Unfailing source := Scheduled.unfailing (by simp [source])
  have unfailing : Source.Unfailing (Origin.stream source) := quiet.passedOn Origin.passesOn_stream
  refine ⟨provides, rfl, rfl, ?plain, ?ahead⟩
  case plain =>
    have valid : plain.validate = .ok () := rfl
    obtain ⟨-, onDemand, behind⟩ := behind_failure provides valid
    obtain ⟨input, opened, before⟩ := onDemand rfl _ _ serves unfailing
    refine ⟨input, opened, ?_⟩
    intro sizes bytes cause input' failed
    have after := (behind _ _ _ _ before).2 _ _ _ _ failed
    rw [aftermathOn_noHeader, verdictOn_noHeader] at after
    exact after
  case ahead =>
    have valid : ahead.validate = .ok () := rfl
    obtain ⟨threaded, -, -⟩ := behind_failure provides valid
    obtain ⟨opened, repeats⟩ := threaded rfl r rfl
    refine ⟨opened, ?_⟩
    intro failure failed
    have room : 0 < r.queueSize := by decide
    have start : r.Open := ⟨rfl, rfl, rfl, .inr rfl, .inr ⟨_, rfl, fun _ => rfl⟩⟩
    have once := Session.reaches_call start room [] (.read 8)
    have follows := Session.follows_of_reaches (Session.follows_start room) once
    have twice := once.trans (Session.reaches_call follows.isOpen follows.room _ (.read 8))
    exact repeats _ twice [] _ failure _ (by rw [← failed]; rfl) _ _ (List.mem_singleton_self _) rfl

/-- A request fails at bytes that are no header; the next ones hand over the member behind them and
    come to the end. -/
theorem failure_forgotten :
    let data := noHeader ++ (PaddedMember.stored [98] 0).bytes
    let source : Scheduled := ⟨data, []⟩
    ∃ input input' last : Input Scheduled,
      Input.open {} (.stream source) { threads := .fixed 0 } = .done input ∧
        Source.readOn input [1] = ([], some (.failed MemberDefect.header.toIo), input') ∧
        Source.readOn input' [1, 1] = ([98], some .ended, last) := by
  intro data source
  have serves : Source.Serves (Origin.stream source) data 0 :=
    source.serves.passedOn Origin.passesOn_stream
  have quiet : Source.Unfailing source := Scheduled.unfailing (by simp [source])
  have unfailing : Source.Unfailing (Origin.stream source) := quiet.passedOn Origin.passesOn_stream
  have valid : ({ threads := .fixed 0 } : ReaderOptions).validate = .ok () := rfl
  obtain ⟨input, opened, before⟩ := exists_before_of_open
    (rfl : Files.openProvider {} (.stream source) = .ok (.stream source)) valid rfl serves unfailing
  have first := before.readsOut
  rw [verdictOn_noHeader] at first
  have failed := first.readOn_eq (show 0 + 0 < [1].countP (0 < ·) by decide) (by decide)
  obtain ⟨-, after⟩ := before.of_failed failed
  rw [aftermathOn_noHeader] at after
  have behind : verdictOn 1 (PaddedMember.stored [98] 0).bytes = ⟨[98], none, 2⟩ := by
    have whole := verdictOn_flatMap [PaddedMember.stored [98] 0] 1 []
    rwa [List.append_nil, verdictOn_of_nil (beginning_nil _), List.flatMap_singleton] at whole
  have second := after.readsOut
  rw [verdictOn_noHeader, behind] at second
  exact ⟨input, _, _, opened, failed,
    second.readOn_eq (show 1 + 0 < [1, 1].countP (0 < ·) by decide) nofun⟩

end Input

end ParallelGzip
