import Mathlib.Logic.Basic
import ParallelGzip.Member.Decoder
import ParallelGzip.Proofs.Deflate.Drain
import ParallelGzip.Proofs.Stream.Serves

set_option autoImplicit false

/-! # What is to be expected of a member

`Stage.prospect` is what a member comes to on the whole of the data before it: the payload that is
still to be delivered, and then either the data behind the member or a failure. It knows nothing of
requests and of where the data comes from. A request delivers a piece of it, or finds the end that
it tells of, or is refused by the source and changes nothing (`Outcome.Fulfils`). The one thing that
depends on the requests is what is lost of the payload in front of damaged data. -/

namespace ParallelGzip

open Deflate (Inflater)

/-! ## Refusals -/

/-- A failure after which the same request may be made again. -/
def IoError.Passing (cause : IoError) : Prop :=
  cause.kind = .interrupted ∨ cause.kind = .wouldBlock

instance : DecidablePred IoError.Passing := fun cause =>
  inferInstanceAs (Decidable (cause.kind = .interrupted ∨ cause.kind = .wouldBlock))

/-- A request that has come to nothing and may be made again. -/
inductive ReadResult.Passing : ReadResult → Prop
  | interrupted {cause : IoError} (passing : cause.Passing) : Passing (.interrupted cause)
  | failed {cause : IoError} (passing : cause.Passing) : Passing (.failed cause)

theorem MemberDefect.not_passing (defect : MemberDefect) : ¬defect.toIo.Passing := by
  cases defect <;> decide

/-! ## Prospects -/

/-- How a member ends. -/
inductive Fate
  /-- It is over, and this is behind it. -/
  | ended (rest : Bytes)
  | failed (cause : IoError)

/-- What is to be expected of a member. -/
structure Prospect where
  /-- The payload still to be delivered. -/
  payload : Bytes
  fate : Fate

/-- The prospect with this piece of payload in front. -/
def Prospect.behind (chunk : Bytes) (prospect : Prospect) : Prospect :=
  ⟨chunk ++ prospect.payload, prospect.fate⟩

/-- How a member ends of which the trailer is before the decoder. -/
def Fate.ofTrailer (p : Parser UInt8 MemberDefect Unit) (data : Bytes) : Fate :=
  match p.reading data with
  | .done () rest => .ended rest
  | .defect defect => .failed defect.toIo
  | .short => .failed endedInFrame

/-- What is to be expected where an inflater has stopped. -/
def Fate.ofBody : Deflate.Stop × Inflater × Bytes → Fate
  | (.finished, z, rest) => .ofTrailer (trailerOf z.history) rest
  | (.corrupt, _, _) => .failed corruptBody
  | _ => .failed endedInBody

namespace Prospect

/-- What is to be expected inside a body. -/
def ofBody (z : Inflater) (data : Bytes) : Prospect :=
  ⟨(z.drain data).2.1.history.toList.drop z.history.size, .ofBody (z.drain data)⟩

/-- What is to be expected inside a header. -/
def ofHeader (p : Parser UInt8 MemberDefect Unit) (data : Bytes) : Prospect :=
  match p.reading data with
  | .done () rest => .ofBody (.start #[]) rest
  | .defect defect => ⟨[], .failed defect.toIo⟩
  | .short => ⟨[], .failed endedInFrame⟩

end Prospect

/-- What is to be expected of a member at this stage. -/
def Stage.prospect : Stage → Bytes → Prospect
  | .header p, data => .ofHeader p data
  | .body z, data => .ofBody z data
  | .trailer p, data => ⟨[], .ofTrailer p data⟩

/-! ## Members that are over -/

theorem Fate.ofTrailer_eq_ended_iff {p : Parser UInt8 MemberDefect Unit} {data rest : Bytes} :
    ofTrailer p data = .ended rest ↔ ∃ trailer, data = trailer ++ rest ∧ p.Reads trailer () := by
  rw [← Parser.reading_eq_done_iff, ofTrailer]
  cases p.reading data <;> simp

/-- A body is over with the trailer behind it. -/
theorem Fate.ofBody_eq_ended_iff {result : Deflate.Stop × Inflater × Bytes} {rest : Bytes} :
    ofBody result = .ended rest ↔ ∃ z trailer, result = (.finished, z, trailer ++ rest) ∧
      (trailerOf z.history).Reads trailer () := by
  obtain ⟨stop, z, behind⟩ := result
  cases stop with
  | finished =>
    rw [ofBody, ofTrailer_eq_ended_iff]
    constructor
    · rintro ⟨trailer, rfl, reads⟩
      exact ⟨z, trailer, rfl, reads⟩
    · rintro ⟨z', trailer, same, reads⟩
      cases same
      exact ⟨trailer, rfl, reads⟩
  | hungry | full | corrupt =>
    constructor
    · intro ends
      cases ends
    · rintro ⟨z', trailer, same, -⟩
      cases same

/-- A member that is over has a header, a body and a trailer. -/
theorem Prospect.ofHeader_eq_ended_iff {p : Parser UInt8 MemberDefect Unit}
    {data payload rest : Bytes} :
    ofHeader p data = ⟨payload, .ended rest⟩ ↔ ∃ header behind z trailer,
      data = header ++ behind ∧ p.Reads header () ∧
      (Inflater.start #[]).drain behind = (.finished, z, trailer ++ rest) ∧
      z.history.toList = payload ∧ (trailerOf z.history).Reads trailer () := by
  constructor
  · intro ends
    rw [ofHeader] at ends
    split at ends
    · next behind whole =>
      obtain ⟨header, split, header_reads⟩ := Parser.reading_eq_done_iff.1 whole
      obtain ⟨hpayload, hfate⟩ := Prospect.mk.inj ends
      obtain ⟨z, trailer, result, reads⟩ := Fate.ofBody_eq_ended_iff.1 hfate
      rw [result] at hpayload
      exact ⟨header, behind, z, trailer, split, header_reads, result, hpayload, reads⟩
    · cases ends
    · cases ends
  · rintro ⟨header, behind, z, trailer, split, header_reads, result, rfl, reads⟩
    rw [ofHeader, Parser.reading_eq_done_iff.2 ⟨header, split, header_reads⟩]
    dsimp only
    rw [ofBody, result, Fate.ofBody_eq_ended_iff.2 ⟨z, trailer, rfl, reads⟩]
    rfl

/-! ## Bodies -/

section Bodies

variable {z z' : Inflater} {slice output rest : Bytes} {n : Nat} {stop : Deflate.Stop}

theorem Prospect.ofBody_eq {data payload : Bytes}
    (appended : (z.drain data).2.1.history.toList = z.history.toList ++ payload) :
    ofBody z data = ⟨payload, .ofBody (z.drain data)⟩ := by
  rw [ofBody, appended, ← Array.length_toList, List.drop_left]

/-- The output of a portion is taken from the front of what is to be expected. -/
theorem Prospect.ofBody_of_inflate (inflated : z.inflate slice n = (stop, output, z', rest))
    (later : Bytes) : ofBody z (slice ++ later) = (ofBody z' (rest ++ later)).behind output := by
  obtain ⟨more, goesOn⟩ : z'.history.toList <+: (z'.drain (rest ++ later)).2.1.history.toList :=
    Inflater.history_isPrefix _ _ _ _ _
  have same := Inflater.drain_of_inflate inflated later
  have appended : (z.drain (slice ++ later)).2.1.history.toList =
      z.history.toList ++ (output ++ more) := by
    rw [same, ← goesOn, Inflater.history_of_inflate inflated, List.append_assoc]
  rw [ofBody_eq appended, ofBody_eq goesOn.symm, same, behind]

/-- Nothing is to be expected but the end where an inflater has stopped. -/
theorem Prospect.ofBody_of_stopped {data : Bytes} (stopped : z.drain data = (stop, z, rest)) :
    ofBody z data = ⟨[], .ofBody (stop, z, rest)⟩ := by
  have nothing : (z.drain data).2.1.history.toList = z.history.toList ++ [] := by
    rw [stopped, List.append_nil]
  rw [ofBody_eq nothing, stopped]

end Bodies

/-! ## Requests -/

section Requests

variable {σ : Type} [Source σ] {b : Buffered σ} {data : Bytes} {refusals n : Nat}

/-- What a request comes to where this is to be expected and the source refuses so many requests at
    most. -/
inductive Outcome.Fulfils (prospect : Prospect) (refusals : Nat) : Outcome σ → Prop
  | delivered {chunk data : Bytes} {stage : Stage} {b : Buffered σ} {refusals' : Nat}
      (some : chunk ≠ []) (fewer : refusals' ≤ refusals) (holds : b.Holds data refusals')
      (whole : prospect = (stage.prospect data).behind chunk) :
      Fulfils prospect refusals (.result (.delivered chunk) (.inside stage b))
  | refused {result : ReadResult} {data : Bytes} {stage : Stage} {b : Buffered σ} {refusals' : Nat}
      (passing : result.Passing) (fewer : refusals' < refusals) (holds : b.Holds data refusals')
      (whole : prospect = stage.prospect data) :
      Fulfils prospect refusals (.result result (.inside stage b))
  /-- Only in front of damaged data can payload be lost. -/
  | failed {cause : IoError} {holding : Holding σ} (final : ¬cause.Passing)
      (fate : prospect.fate = .failed cause)
      (complete : cause ≠ corruptBody → prospect.payload = []) :
      Fulfils prospect refusals (.result (.failed cause) holding)
  | ended {b : Buffered σ} {rest : Bytes} {refusals' : Nat} (fewer : refusals' ≤ refusals)
      (holds : b.Holds rest refusals') (ends : prospect = ⟨[], .ended rest⟩) :
      Fulfils prospect refusals (.ended b)

theorem Outcome.Fulfils.mono {prospect : Prospect} {refusals' : Nat} {outcome : Outcome σ}
    (fulfils : outcome.Fulfils prospect refusals') (fewer : refusals' ≤ refusals) :
    outcome.Fulfils prospect refusals := by
  cases fulfils with
  | delivered some fewer' holds whole => exact .delivered some (Nat.le_trans fewer' fewer) holds whole
  | refused passing fewer' holds whole =>
    exact .refused passing (Nat.lt_of_lt_of_le fewer' fewer) holds whole
  | failed final fate complete => exact .failed final fate complete
  | ended fewer' holds ends => exact .ended (Nat.le_trans fewer' fewer) holds ends

/-- What has been put into the buffer is in front of the data; whatever is left of it can be put
    back. -/
theorem Buffered.Filled.split {slice : Bytes} (filled : Filled data refusals (.delivered slice, b)) :
    ∃ later refusals', data = slice ++ later ∧ refusals' ≤ refusals ∧
      ∀ rest, { b with buffer := rest }.Holds (rest ++ later) refusals' := by
  have put : ∀ {refusals'}, b.Holds data refusals' → b.buffer = slice → ∃ later,
      data = slice ++ later ∧ ∀ rest, { b with buffer := rest }.Holds (rest ++ later) refusals' := by
    rintro refusals' ⟨later, rfl, serves, room⟩ rfl
    exact ⟨later, rfl, fun rest => ⟨later, rfl, serves, room⟩⟩
  cases filled with
  | some nonempty buffer fewer holds =>
    obtain ⟨later, split, back⟩ := put holds buffer
    exact ⟨later, _, split, fewer, back⟩
  | ended ends fewer holds =>
    have none : b.buffer = [] := by
      have front := holds.buffer_isPrefix
      rwa [ends, List.prefix_nil] at front
    obtain ⟨later, split, back⟩ := put holds none
    exact ⟨later, _, split, fewer, back⟩

theorem Buffered.Filled.eq_nil (filled : Filled data refusals (.delivered [], b)) : data = [] := by
  cases filled with
  | some nonempty => exact absurd rfl nonempty
  | ended ends => exact ends

/-- A refusal by the source leaves everything as it was. -/
theorem Buffered.Filled.refused {result : ReadResult}
    (filled : Filled data refusals (result, b)) (none : ∀ slice, result ≠ .delivered slice) :
    result.Passing ∧ ∃ refusals' < refusals, b.Holds data refusals' := by
  cases filled with
  | some | ended => exact absurd rfl (none _)
  | interrupted kind fewer holds => exact ⟨.interrupted (.inl kind), _, fewer, holds⟩
  | blocked kind fewer holds => exact ⟨.failed (.inr kind), _, fewer, holds⟩

theorem Buffered.Holds.filled {result : ReadResult × Buffered σ} (holds : b.Holds data refusals)
    (filled : b.fillBuffer = result) : Filled data refusals result := filled ▸ holds.fillBuffer

theorem fulfils_readTrailer (holds : b.Holds data refusals) (p : Parser UInt8 MemberDefect Unit) :
    (readTrailer p b).Fulfils ⟨[], .ofTrailer p data⟩ refusals := by
  have parsed := holds.parse p
  rw [readTrailer, Fate.ofTrailer]
  generalize b.parse p = result at parsed ⊢
  cases parsed with
  | done whole fewer holds => exact .ended fewer holds (by rw [whole])
  | @defect defect _ _ whole =>
    exact .failed defect.not_passing (by rw [whole]) fun _ => rfl
  | ended whole => exact .failed (by decide) (by rw [whole]) fun _ => rfl
  | @blocked rest cause p' b' refusals' kind fewer holds whole =>
    refine .refused (.failed (.inr kind)) fewer holds ?_
    rw [Stage.prospect, Fate.ofTrailer, whole]

theorem fulfils_readBody (holds : b.Holds data refusals) (z : Inflater) (pos : 0 < n) :
    (readBody z b n).Fulfils (.ofBody z data) refusals := by
  fun_induction readBody z b n generalizing data refusals with
  | case1 z b slice b' filled output z' rest inflated =>
    obtain ⟨later, refusals', rfl, -⟩ := (holds.filled filled).split
    have stopped := Inflater.drain_of_stopped (Inflater.run_of_inflate inflated) (by decide)
    have ends := Inflater.drain_of_final stopped (.inr rfl) later
    refine .failed (by decide) ?_ fun ne => absurd rfl ne
    rw [Prospect.ofBody_of_inflate inflated, Prospect.ofBody_of_stopped ends]
    rfl
  | case2 z b slice b' filled stop output z' rest sound inflated some =>
    obtain ⟨later, refusals', rfl, fewer, back⟩ := (holds.filled filled).split
    exact .delivered some fewer (back rest) (Prospect.ofBody_of_inflate inflated later)
  -- in the other cases nothing has been put out, and it depends on why
  | case3 z b slice b' filled output z' rest none _ inflated =>
    obtain rfl := not_not.1 none
    obtain ⟨later, refusals', rfl, fewer, back⟩ := (holds.filled filled).split
    have stopped := Inflater.drain_of_stopped (Inflater.run_of_inflate inflated) (by decide)
    have ends := Inflater.drain_of_final stopped (.inl rfl) later
    rw [Prospect.ofBody_of_inflate inflated, Prospect.ofBody_of_stopped ends]
    exact (fulfils_readTrailer (back rest) _).mono fewer
  | case4 z b b' output z' rest none filled _ inflated =>
    obtain rfl := not_not.1 none
    obtain rfl := (holds.filled filled).eq_nil
    obtain rfl := Inflater.rest_eq_nil_of_inflate_hungry inflated
    have stopped := Inflater.drain_of_stopped (Inflater.run_of_inflate inflated) (by decide)
    have whole := Prospect.ofBody_of_inflate inflated []
    rw [List.append_nil, Prospect.ofBody_of_stopped stopped] at whole
    exact .failed (by decide) (by rw [whole]; rfl) fun _ => by rw [whole]; rfl
  | case5 z b slice b' filled output z' rest none nonempty _ inflated ih =>
    obtain rfl := not_not.1 none
    obtain ⟨later, refusals', rfl, fewer, back⟩ := (holds.filled filled).split
    obtain rfl := Inflater.rest_eq_nil_of_inflate_hungry inflated
    rw [Prospect.ofBody_of_inflate inflated]
    exact (ih (back [])).mono fewer
  | case6 z b slice b' filled stop output z' rest corrupt inflated none finished hungry =>
    obtain rfl := not_not.1 none
    cases stop with
    | full => exact absurd rfl (Inflater.output_ne_nil_of_full inflated pos)
    | finished => exact (finished rfl).elim
    | hungry => exact (hungry rfl).elim
    | corrupt => exact (corrupt rfl).elim
  | case7 z b result b' other filled =>
    obtain ⟨passing, refusals', fewer, holds⟩ := (holds.filled filled).refused other
    exact .refused passing fewer holds rfl

theorem fulfils_readHeader (holds : b.Holds data refusals) (p : Parser UInt8 MemberDefect Unit)
    (pos : 0 < n) : (readHeader p b n).Fulfils (.ofHeader p data) refusals := by
  have parsed := holds.parse p
  rw [readHeader, Prospect.ofHeader]
  generalize b.parse p = result at parsed ⊢
  cases parsed with
  | done whole fewer holds =>
    rw [whole]
    exact (fulfils_readBody holds _ pos).mono fewer
  | @defect defect _ _ whole =>
    rw [whole]
    exact .failed defect.not_passing rfl fun _ => rfl
  | ended whole =>
    rw [whole]
    exact .failed (by decide) rfl fun _ => rfl
  | blocked kind fewer holds whole =>
    refine .refused (.failed (.inr kind)) fewer holds ?_
    rw [Stage.prospect, Prospect.ofHeader, whole]

theorem fulfils_openMember (holds : b.Holds data refusals) (pos : 0 < n) :
    (openMember b n).Fulfils (.ofHeader MemberHeader.read data) refusals := by
  have parsed := holds.parse MemberHeader.read
  rw [openMember]
  generalize b.parse MemberHeader.read = result at parsed ⊢
  cases parsed with
  | done whole fewer holds =>
    rw [Prospect.ofHeader, whole]
    exact (fulfils_readBody holds _ pos).mono fewer
  | @defect defect _ _ whole =>
    rw [Prospect.ofHeader, whole]
    exact .failed defect.not_passing rfl fun _ => rfl
  | ended whole =>
    rw [Prospect.ofHeader, whole]
    exact .failed (by decide) rfl fun _ => rfl
  -- a source that would block is asked again at once
  | @blocked rest cause p' b' refusals' kind fewer holds whole =>
    have same : Prospect.ofHeader MemberHeader.read data = .ofHeader p' rest := by
      rw [Prospect.ofHeader, whole, Prospect.ofHeader]
    dsimp only
    rw [if_pos kind, same]
    exact (fulfils_readHeader holds p' pos).mono (Nat.le_of_lt fewer)

theorem Buffered.Holds.opened {outcome : Outcome σ} (holds : b.Holds data refusals)
    (opened : openMember b n = outcome) (pos : 0 < n) :
    outcome.Fulfils (.ofHeader MemberHeader.read data) refusals :=
  opened ▸ fulfils_openMember holds pos

theorem fulfils_readInside (holds : b.Holds data refusals) (stage : Stage) (pos : 0 < n) :
    (readInside stage b n).Fulfils (stage.prospect data) refusals := by
  cases stage with
  | header p => exact fulfils_readHeader holds p pos
  | body z => exact fulfils_readBody holds z pos
  | trailer p => exact fulfils_readTrailer holds p

end Requests

end ParallelGzip
