import ParallelGzip.Proofs.Tells

set_option autoImplicit false

/-! # Aftermath: what a failure leaves of the data

A failure does not say what later requests come to. Damaged or missing compressed data, and a missing
part of a trailer, are found again by every request. A header that cannot be read and a trailer that
is wrong use up their member: the decoder goes on with what is behind them as if another member could
begin there. `aftermathOn` is what becomes of the data; each parser and each stage of a member keeps
to it (`Outcome.Leaves`), and so does a decoder, request by request (`Members.Before.leaves`). -/

namespace ParallelGzip

open Deflate (Inflater)

/-! ## What a failure leaves of the data -/

/-- The data behind what a parser takes of it. -/
def Parser.remainder {τ ε α : Type} : Parser τ ε α → List τ → List τ
  | need _ next, symbol :: rest => (next symbol).remainder rest
  | _, rest => rest

/-- How things go on where a member is over or has failed. -/
inductive Aftermath
  /-- The member is over, and this is behind it. -/
  | ended (rest : Bytes)
  /-- The failure has used the member up, and this is decoded next. -/
  | spent (rest : Bytes)
  /-- The failure is found again. -/
  | stuck

namespace Aftermath

/-- How things go on behind a trailer. -/
def ofTrailer (p : Parser UInt8 MemberDefect Unit) (data : Bytes) : Aftermath :=
  match p.reading data with
  | .done () rest => .ended rest
  | .defect _ => .spent (p.remainder data)
  | .short => .stuck

/-- How things go on where an inflater has stopped. -/
def ofBody : Deflate.Stop × Inflater × Bytes → Aftermath
  | (.finished, z, rest) => .ofTrailer (trailerOf z.history) rest
  | _ => .stuck

/-- How things go on where a member has to begin. -/
def ofHeader (data : Bytes) : Aftermath :=
  match MemberHeader.read.reading data with
  | .done () rest => .ofBody ((Inflater.start #[]).drain rest)
  | .defect _ => .spent (MemberHeader.read.remainder data)
  | .short => .spent []

theorem ofTrailer_eq_ended_iff {p : Parser UInt8 MemberDefect Unit} {data rest : Bytes} :
    ofTrailer p data = .ended rest ↔ Fate.ofTrailer p data = .ended rest := by
  rw [ofTrailer, Fate.ofTrailer]
  cases p.reading data <;> simp

theorem ofBody_eq_ended_iff {result : Deflate.Stop × Inflater × Bytes} {rest : Bytes} :
    ofBody result = .ended rest ↔ Fate.ofBody result = .ended rest := by
  obtain ⟨stop, z, behind⟩ := result
  cases stop with
  | finished => exact ofTrailer_eq_ended_iff
  | hungry | full | corrupt => simp [ofBody, Fate.ofBody]

/-- A member is over just if that is to be expected of it. -/
theorem ofHeader_eq_ended_iff {data rest : Bytes} :
    ofHeader data = .ended rest ↔
      (Prospect.ofHeader MemberHeader.read data).fate = .ended rest := by
  rw [ofHeader, Prospect.ofHeader]
  cases MemberHeader.read.reading data with
  | done => exact ofBody_eq_ended_iff
  | defect | short => simp

end Aftermath

/-- What becomes of a stream of which so many members have been opened, at its first failure or at
    its end. -/
def aftermathOn (started : Nat) (data : Bytes) : Aftermath :=
  if beginning started data = [] then .ended []
  else
    match _h : Aftermath.ofHeader (beginning started data) with
    | .ended rest => aftermathOn (started + 1) rest
    | .spent rest => .spent rest
    | .stuck => .stuck
termination_by data.length
decreasing_by
  have ends : Prospect.ofHeader MemberHeader.read (beginning started data) = ⟨_, .ended rest⟩ :=
    congrArg (Prospect.mk _) (Aftermath.ofHeader_eq_ended_iff.1 _h)
  exact Nat.lt_of_lt_of_le (Prospect.length_lt_of_ended ends) (length_beginning_le started data)

/-- What becomes of a stream inside a member. -/
def Aftermath.beyond (started : Nat) : Aftermath → Aftermath
  | ended rest => aftermathOn started rest
  | spent rest => .spent rest
  | stuck => .stuck

theorem aftermathOn_of_nil {started : Nat} {data : Bytes} (none : beginning started data = []) :
    aftermathOn started data = .ended [] := by
  rw [aftermathOn, if_pos none]

theorem aftermathOn_of_ne_nil {started : Nat} {data : Bytes} (some : beginning started data ≠ []) :
    aftermathOn started data =
      (Aftermath.ofHeader (beginning started data)).beyond (started + 1) := by
  rw [aftermathOn, if_neg some]
  split <;> next result => rw [result]; rfl

/-- Padding in front of the next member makes no difference. -/
theorem aftermathOn_congr {started : Nat} {data data' : Bytes}
    (same : beginning started data' = beginning started data) :
    aftermathOn started data' = aftermathOn started data := by
  by_cases none : beginning started data = []
  · rw [aftermathOn_of_nil none, aftermathOn_of_nil (same.trans none)]
  · rw [aftermathOn_of_ne_nil none, aftermathOn_of_ne_nil (same ▸ none), same]

/-- Once a member has been opened, what a decoder is in front of can be told. -/
def Stage.Opened : Stage → Prop
  | header _ => False
  | body _ | trailer _ => True

/-- How things go on inside a member that has been opened. -/
def Stage.aftermath : Stage → Bytes → Aftermath
  | .header _, _ => .stuck
  | .body z, data => .ofBody (z.drain data)
  | .trailer p, data => .ofTrailer p data

/-! ## Sources that do not fail -/

section Requests

variable {σ : Type} [Source σ] {data : Bytes} {refusals n : Nat}

namespace Buffered

variable {b b' : Buffered σ}

/-- The buffer and the source behind it serve `data`. The source does not fail, and interrupts so
    many requests at most. -/
structure Before (b : Buffered σ) (data : Bytes) (refusals : Nat) : Prop where
  holds : b.Holds data refusals
  unfailing : Source.Unfailing b.source

/-- Whatever is left of the buffered bytes can be put back in front of what comes behind them. -/
theorem Before.slice {slice : Bytes} (before : b.Before data refusals)
    (filled : b.fillBuffer = (.delivered slice, b')) :
    ∃ later, data = slice ++ later ∧ (slice = [] → later = []) ∧
      ∀ rest, { b' with buffer := rest }.Before (rest ++ later) refusals := by
  obtain ⟨later, refusals', split, fewer, back⟩ := (before.holds.filled filled).split
  refine ⟨later, split, ?_, fun rest => ⟨(back rest).mono fewer, ?_⟩⟩
  · rintro rfl
    exact (before.holds.filled filled).eq_nil ▸ split.symm
  · exact (failsOnly_fillBuffer before.unfailing filled).2

theorem Before.interrupted {result : ReadResult} (before : b.Before data refusals)
    (filled : b.fillBuffer = (result, b')) (none : ∀ slice, result ≠ .delivered slice) :
    (∃ cause, result = .interrupted cause) ∧ b'.Before data refusals := by
  obtain ⟨fails, unfailing⟩ := failsOnly_fillBuffer before.unfailing filled
  obtain ⟨passing, refusals', fewer, holds⟩ := (before.holds.filled filled).refused none
  refine ⟨?_, holds.mono (Nat.le_of_lt fewer), unfailing⟩
  cases passing with
  | interrupted => exact ⟨_, rfl⟩
  | failed => exact (fails _ rfl).elim

/-- A buffer that has come to the end stands at the end. -/
theorem Holds.nextByte_ended {want : Nat} (holds : b.Holds data refusals)
    (fetched : b.nextByte want = (.ended, b')) : b'.Holds data refusals := by
  fun_induction Buffered.nextByte b want generalizing refusals with
  | case1 b b₁ filled =>
    cases fetched
    have result := holds.refill (Nat.le_max_right want b.capacity)
    rw [filled] at result
    cases result with
    | some nonempty => exact absurd rfl nonempty
    | ended ends fewer holds => exact holds.mono fewer
  | case3 b cause b₁ filled ih =>
    have result := holds.refill (Nat.le_max_right want b.capacity)
    rw [filled] at result
    cases result with
    | interrupted kind fewer holds => exact (ih holds fetched).mono (Nat.le_of_lt fewer)
  | case2 | case4 | case5 => cases fetched

/-- What the next byte is, or that there is none. -/
inductive Next (refusals : Nat) : Bytes → ByteResult × Buffered σ → Prop
  | byte {c : UInt8} {rest : Bytes} {b : Buffered σ} (before : b.Before rest refusals) :
      Next refusals (c :: rest) (.byte c, b)
  | ended {b : Buffered σ} (before : b.Before [] refusals) : Next refusals [] (.ended, b)

theorem Before.nextByte (before : b.Before data refusals) (want : Nat) :
    Next refusals data (b.nextByte want) := by
  obtain ⟨fails, unfailing⟩ := failsOnly_nextByte before.unfailing want
  have fetched := before.holds.nextByte want
  rcases result : b.nextByte want with ⟨answer, b'⟩
  rw [result] at fails unfailing fetched
  cases fetched with
  | byte first fewer holds =>
    subst first
    exact .byte ⟨holds.mono fewer, unfailing⟩
  | ended none =>
    subst none
    exact .ended ⟨before.holds.nextByte_ended result, unfailing⟩
  | blocked => exact (fails _ rfl).elim

/-- A parser that has been run to its decision or to the end of the data. -/
inductive Decided {α : Type} (p : Parser UInt8 MemberDefect α) (data : Bytes) (refusals : Nat) :
    ParseResult MemberDefect α × Parser UInt8 MemberDefect α × Buffered σ → Prop
  | done {value : α} {rest : Bytes} {p' : Parser UInt8 MemberDefect α} {b : Buffered σ}
      (whole : p.reading data = .done value rest) (before : b.Before rest refusals) :
      Decided p data refusals (.done value, p', b)
  | defect {defect : MemberDefect} {p' : Parser UInt8 MemberDefect α} {b : Buffered σ}
      (whole : p.reading data = .defect defect) (before : b.Before (p.remainder data) refusals) :
      Decided p data refusals (.defect defect, p', b)
  | ended {p' : Parser UInt8 MemberDefect α} {b : Buffered σ} (whole : p.reading data = .short)
      (again : p'.reading [] = .short) (before : b.Before [] refusals) :
      Decided p data refusals (.ended, p', b)

theorem Before.parse {α : Type} (before : b.Before data refusals)
    (p : Parser UInt8 MemberDefect α) : Decided p data refusals (b.parse p) := by
  induction p generalizing b data with
  | done value => exact .done rfl before
  | fail defect => exact .defect rfl before
  | refuse defect => exact .defect rfl before
  | need want next ih =>
    have fetched := before.nextByte want
    rw [Buffered.parse]
    generalize b.nextByte want = fetch at fetched ⊢
    cases fetched with
    | @byte c rest b' front =>
      dsimp only
      split
      · next defect refused =>
        have refuses : next c = .refuse defect := by
          cases hp : next c <;> simp_all [Parser.refusal?]
        refine .defect (by rw [Parser.reading, refuses, Parser.reading]) ?_
        rwa [Parser.remainder, refuses]
      · have decided := ih c front
        generalize b'.parse (next c) = result at decided ⊢
        cases decided with
        | done whole behind => exact .done whole behind
        | defect whole behind => exact .defect whole behind
        | ended whole again behind => exact .ended whole again behind
    | ended atEnd => exact .ended rfl rfl atEnd

end Buffered

/-! ## Inside a member -/

/-- What a request leaves where things go on like this. -/
inductive Outcome.Leaves (aftermath : Aftermath) (refusals : Nat) : Outcome σ → Prop
  | going {result : ReadResult} {stage : Stage} {b : Buffered σ} {data : Bytes}
      (fine : ∀ cause, result ≠ .failed cause) (opened : stage.Opened)
      (before : b.Before data refusals) (same : aftermath = stage.aftermath data) :
      Leaves aftermath refusals (.result result (.inside stage b))
  | stuck {cause : IoError} {stage : Stage} {b : Buffered σ} {data : Bytes}
      (opened : stage.Opened) (before : b.Before data refusals) (found : aftermath = .stuck)
      (still : stage.aftermath data = .stuck) (again : stage.prospect data = ⟨[], .failed cause⟩) :
      Leaves aftermath refusals (.result (.failed cause) (.inside stage b))
  | spent {cause : IoError} {b : Buffered σ} {rest : Bytes} (before : b.Before rest refusals)
      (used : aftermath = .spent rest) :
      Leaves aftermath refusals (.result (.failed cause) (.between b))
  | ended {b : Buffered σ} {rest : Bytes} (before : b.Before rest refusals)
      (ends : aftermath = .ended rest) : Leaves aftermath refusals (.ended b)

variable {b : Buffered σ}

theorem leaves_readTrailer (before : b.Before data refusals) (p : Parser UInt8 MemberDefect Unit) :
    (readTrailer p b).Leaves (.ofTrailer p data) refusals := by
  have decided := before.parse p
  rw [readTrailer, Aftermath.ofTrailer]
  generalize b.parse p = result at decided ⊢
  cases decided with
  | done whole before => exact .ended before (by rw [whole])
  | defect whole before => exact .spent before (by rw [whole])
  | @ended p' _ whole again before =>
    refine .stuck trivial before (by rw [whole]) ?_ ?_
    · rw [Stage.aftermath, Aftermath.ofTrailer, again]
    · rw [Stage.prospect, Fate.ofTrailer, again]

theorem leaves_readBody (before : b.Before data refusals) (z : Inflater) (pos : 0 < n) :
    (readBody z b n).Leaves (.ofBody (z.drain data)) refusals := by
  fun_induction readBody z b n generalizing data with
  | case1 z b slice b' filled output z' rest inflated =>
    obtain ⟨later, rfl, -, back⟩ := before.slice filled
    have stopped := Inflater.drain_of_stopped (Inflater.run_of_inflate inflated) (by decide)
    have ends := Inflater.drain_of_final stopped (.inr rfl) later
    have still : Aftermath.ofBody (z'.drain (rest ++ later)) = .stuck := by
      rw [ends]
      rfl
    rw [Inflater.drain_of_inflate inflated]
    exact .stuck trivial (back rest) still still
      (Prospect.ofBody_of_stopped ends)
  | case2 z b slice b' filled stop output z' rest sound inflated some =>
    obtain ⟨later, rfl, -, back⟩ := before.slice filled
    rw [Inflater.drain_of_inflate inflated]
    exact .going (by simp) trivial (back rest) rfl
  | case3 z b slice b' filled output z' rest none _ inflated =>
    obtain ⟨later, rfl, -, back⟩ := before.slice filled
    have stopped := Inflater.drain_of_stopped (Inflater.run_of_inflate inflated) (by decide)
    rw [Inflater.drain_of_inflate inflated, Inflater.drain_of_final stopped (.inl rfl)]
    exact leaves_readTrailer (back rest) _
  | case4 z b b' output z' rest none filled _ inflated =>
    obtain ⟨later, rfl, nothing, back⟩ := before.slice filled
    obtain rfl := nothing rfl
    obtain rfl := Inflater.rest_eq_nil_of_inflate_hungry inflated
    have stopped := Inflater.drain_of_stopped (Inflater.run_of_inflate inflated) (by decide)
    have same : z.drain [] = z'.drain [] := Inflater.drain_of_inflate inflated []
    have still : Aftermath.ofBody (z'.drain []) = .stuck := by
      rw [stopped]
      rfl
    rw [same]
    exact .stuck trivial (back []) still still
      (Prospect.ofBody_of_stopped stopped)
  | case5 z b slice b' filled output z' rest none nonempty _ inflated ih =>
    obtain ⟨later, rfl, -, back⟩ := before.slice filled
    obtain rfl := Inflater.rest_eq_nil_of_inflate_hungry inflated
    rw [Inflater.drain_of_inflate inflated]
    exact ih (back [])
  | case6 z b slice b' filled stop output z' rest corrupt inflated none finished hungry =>
    obtain rfl := not_not.1 none
    cases stop with
    | full => exact absurd rfl (Inflater.output_ne_nil_of_full inflated pos)
    | finished => exact (finished rfl).elim
    | hungry => exact (hungry rfl).elim
    | corrupt => exact (corrupt rfl).elim
  | case7 z b result b' other filled =>
    obtain ⟨⟨cause, rfl⟩, before⟩ := before.interrupted filled other
    exact .going (by simp) trivial before rfl

theorem leaves_openMember (before : b.Before data refusals) (pos : 0 < n) :
    (openMember b n).Leaves (.ofHeader data) refusals := by
  have decided := before.parse MemberHeader.read
  rw [openMember, Aftermath.ofHeader]
  generalize b.parse MemberHeader.read = result at decided ⊢
  cases decided with
  | done whole before =>
    rw [whole]
    exact leaves_readBody before _ pos
  | defect whole before => exact .spent before (by rw [whole])
  | ended whole again before => exact .spent before (by rw [whole])

theorem Buffered.Before.opened {outcome : Outcome σ} (before : b.Before data refusals)
    (opened : openMember b n = outcome) (pos : 0 < n) : outcome.Leaves (.ofHeader data) refusals :=
  opened ▸ leaves_openMember before pos

theorem leaves_readInside (before : b.Before data refusals) {stage : Stage} (opened : stage.Opened)
    (pos : 0 < n) : (readInside stage b n).Leaves (stage.aftermath data) refusals := by
  cases stage with
  | header p => exact opened.elim
  | body z => exact leaves_readBody before z pos
  | trailer p => exact leaves_readTrailer before p

/-! ## Between members -/

/-- What looking for the next member comes to. -/
inductive Searched (started : Nat) (data : Bytes) (refusals : Nat) :
    Search × Buffered σ → Prop
  | found {b : Buffered σ} (some : beginning started data ≠ [])
      (before : b.Before (beginning started data) refusals) :
      Searched started data refusals (.found, b)
  | ended {b : Buffered σ} (none : beginning started data = []) :
      Searched started data refusals (.ended, b)
  | interrupted {cause : IoError} {b : Buffered σ} {data' : Bytes}
      (before : b.Before data' refusals)
      (same : beginning started data' = beginning started data) :
      Searched started data refusals (.interrupted cause, b)

theorem Buffered.Before.searched {started : Nat} {result : Search × Buffered σ}
    (before : b.Before data refusals) (search : findMember b started = result) :
    Searched started data refusals result := by
  obtain ⟨fails, unfailing⟩ := failsOnly_findMember before.unfailing started
  rw [search] at fails unfailing
  cases before.holds.found search with
  | found some fewer holds => exact .found some ⟨holds.mono fewer, unfailing⟩
  | ended none => exact .ended none
  | interrupted passing fewer holds same =>
    exact .interrupted ⟨holds.mono (Nat.le_of_lt fewer), unfailing⟩ same
  | failed => exact (fails _ rfl).elim

namespace Members

variable {m : Members σ} {started : Nat}

/-- What becomes of the data that a decoder has before it. -/
def aftermath (m : Members σ) (data : Bytes) : Aftermath :=
  match m.holding with
  | .between _ => aftermathOn m.started data
  | .inside stage _ => (stage.aftermath data).beyond m.started
  | .lost => .ended []

/-- The decoder has `data` before it, its source does not fail, and it is not held up in a
    header. -/
def Before (m : Members σ) (data : Bytes) (refusals : Nat) : Prop :=
  m.finished = false ∧
    match m.holding with
    | .between b => b.Before data refusals
    | .inside stage b => stage.Opened ∧ b.Before data refusals
    | .lost => False

/-- What a request leaves where this becomes of the data. -/
inductive Leaves (aftermath : Aftermath) (refusals : Nat) : ReadResult × Members σ → Prop
  | going {result : ReadResult} {m : Members σ} {data : Bytes}
      (fine : ∀ cause, result ≠ .failed cause) (before : m.Before data refusals)
      (same : aftermath = m.aftermath data) : Leaves aftermath refusals (result, m)
  | stuck {cause : IoError} {m : Members σ} {data : Bytes} (before : m.Before data refusals)
      (found : aftermath = .stuck) (still : m.aftermath data = .stuck)
      (again : m.verdict data = ⟨[], some cause, m.started⟩) :
      Leaves aftermath refusals (.failed cause, m)
  | spent {cause : IoError} {b : Buffered σ} {started : Nat} {rest : Bytes}
      (before : b.Before rest refusals) (used : aftermath = .spent rest) :
      Leaves aftermath refusals (.failed cause, ⟨.between b, started, false⟩)
  | ended {m : Members σ} (atEnd : m.AtEnd) : Leaves aftermath refusals (.delivered [], m)

theorem leaves_of_outcome {aftermath : Aftermath} {result : ReadResult} {holding : Holding σ}
    (leaves : (Outcome.result result holding).Leaves aftermath refusals) :
    Leaves (aftermath.beyond started) refusals (result, ⟨holding, started, false⟩) := by
  cases leaves with
  | going fine opened before same =>
    exact .going fine ⟨rfl, opened, before⟩ (congrArg (Aftermath.beyond started) same)
  | stuck opened before found still again =>
    refine .stuck ⟨rfl, opened, before⟩ (congrArg (Aftermath.beyond started) found) ?_ ?_
    · exact congrArg (Aftermath.beyond started) still
    · exact congrArg (Prospect.verdict started) again
  | spent before used => exact .spent before (congrArg (Aftermath.beyond started) used)

theorem leaves_readNext (before : b.Before data refusals) (pos : 0 < n) :
    Leaves (aftermathOn started data) refusals (readNext b started n) := by
  fun_induction readNext b started n generalizing data with
  | case1 b started b' search result holding opened =>
    cases before.searched search with
    | found some before =>
      rw [aftermathOn_of_ne_nil some]
      exact leaves_of_outcome (before.opened opened pos)
  -- a member without payload: the request goes on behind it
  | case2 b started b' search b'' opened ih =>
    cases before.searched search with
    | found some before =>
      cases before.opened opened pos with
      | ended behind ends =>
        rw [aftermathOn_of_ne_nil some, ends]
        exact ih behind
  | case3 b started b' search opened =>
    cases before.searched search with
    | found some before => cases before.opened opened pos
  | case4 b started b' search => exact .ended ⟨rfl, b', rfl⟩
  | case5 b started cause b' search =>
    cases before.searched search with
    | interrupted before same =>
      exact .going (by simp) ⟨rfl, before⟩ (aftermathOn_congr same).symm
  | case6 b started cause b' search | case7 b started b' search => cases before.searched search

/-- A request for something leaves what becomes of the data as it was, up to a failure or the
    end. -/
theorem Before.leaves (before : m.Before data refusals) (pos : 0 < n) :
    Leaves (m.aftermath data) refusals (Source.read m n) := by
  show Leaves (m.aftermath data) refusals (m.read n)
  obtain ⟨holding, started, finished⟩ := m
  obtain ⟨going, before⟩ := before
  dsimp only at going before
  subst going
  unfold Members.read
  rw [if_neg (Nat.ne_of_gt pos)]
  cases holding with
  | between b => exact leaves_readNext before pos
  | lost => exact before.elim
  | inside stage b =>
    have leaves := leaves_readInside before.2 before.1 pos
    dsimp only
    generalize readInside stage b n = outcome at leaves ⊢
    cases outcome with
    | result result holding => exact leaves_of_outcome leaves
    | ended b' =>
      cases leaves with
      | @ended _ rest behind ends =>
        have same : aftermath ⟨.inside stage b, started, false⟩ data = aftermathOn started rest :=
          congrArg (Aftermath.beyond started) ends
        rw [same]
        exact leaves_readNext behind pos
    | lostSource => cases leaves

end Members

end Requests

/-! ## Which failures are found again -/

/-- Failures with which things can go on like this. -/
def Aftermath.Blames : Aftermath → IoError → Prop
  | ended _, _ => False
  | spent _, cause => cause ≠ corruptBody ∧ cause ≠ endedInBody
  | stuck, cause => ∀ defect : MemberDefect, cause ≠ defect.toIo

theorem MemberDefect.toIo_ne_body (defect : MemberDefect) :
    defect.toIo ≠ corruptBody ∧ defect.toIo ≠ endedInBody := by
  cases defect <;> decide

theorem Aftermath.blames_ofTrailer {p : Parser UInt8 MemberDefect Unit} {data : Bytes}
    {cause : IoError} (fails : Fate.ofTrailer p data = .failed cause) :
    (ofTrailer p data).Blames cause := by
  rw [Fate.ofTrailer] at fails
  rw [ofTrailer]
  cases result : p.reading data with
  | done value rest =>
    rw [result] at fails
    cases fails
  | defect defect =>
    rw [result] at fails
    cases fails
    exact defect.toIo_ne_body
  | short =>
    rw [result] at fails
    cases fails
    intro defect
    cases defect <;> decide

theorem Aftermath.blames_ofBody {result : Deflate.Stop × Inflater × Bytes} {cause : IoError}
    (fails : Fate.ofBody result = .failed cause) : (ofBody result).Blames cause := by
  obtain ⟨stop, z, rest⟩ := result
  cases stop with
  | finished => exact blames_ofTrailer fails
  | hungry | full | corrupt =>
    cases fails
    intro defect same
    exact absurd same.symm (by first | exact defect.toIo_ne_body.1 | exact defect.toIo_ne_body.2)

theorem Aftermath.blames_ofHeader {data : Bytes} {cause : IoError}
    (fails : (Prospect.ofHeader MemberHeader.read data).fate = .failed cause) :
    (ofHeader data).Blames cause := by
  rw [Prospect.ofHeader] at fails
  rw [ofHeader]
  cases result : MemberHeader.read.reading data with
  | done value rest =>
    rw [result] at fails
    exact blames_ofBody fails
  | defect defect =>
    rw [result] at fails
    cases fails
    exact defect.toIo_ne_body
  | short =>
    rw [result] at fails
    cases fails
    exact ⟨by decide, by decide⟩

/-- A stream that fails is used up by a failure of a header or a trailer only, and is stuck at
    another one. -/
theorem blames_aftermathOn {started : Nat} {data : Bytes} {cause : IoError}
    (fails : (verdictOn started data).failure = some cause) :
    (aftermathOn started data).Blames cause := by
  fun_induction verdictOn started data with
  | case1 => cases fails
  | case2 started data some payload cause' failed =>
    cases fails
    have blames := Aftermath.blames_ofHeader (congrArg Prospect.fate failed)
    rw [aftermathOn_of_ne_nil some]
    generalize Aftermath.ofHeader _ = aftermath at blames ⊢
    cases aftermath with
    | ended => exact blames.elim
    | spent | stuck => exact blames
  | case3 started data some payload rest ends ih =>
    have same := Aftermath.ofHeader_eq_ended_iff.2 (congrArg Prospect.fate ends)
    rw [aftermathOn_of_ne_nil some, same]
    exact ih fails

end ParallelGzip
