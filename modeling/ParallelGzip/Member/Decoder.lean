import ParallelGzip.Deflate.Inflate
import ParallelGzip.Member.Header
import ParallelGzip.Stream.Parse

set_option autoImplicit false

/-! # Decoding one member

A request inside a member delivers some of its payload, or finds the member over. What it comes to
when the input is damaged, and what the next request then does:

* a header that cannot be read uses up its member. A source that would block in a header is the
  exception: the header is kept and tried again, at once and by every later request;
* damaged or missing compressed data is found again by every later request, and so is a missing
  part of a trailer;
* a wrong trailer uses up its member.

`Outcome.Within` bounds what an outcome leaves to come; it is what loops over members end by. -/

namespace ParallelGzip

open Deflate (Inflater)

/-! ## Failures of the decoder -/

/-- The input ends inside a header or a trailer. -/
def endedInFrame : IoError := .bare .unexpectedEof

/-- The input ends inside compressed data. -/
def endedInBody : IoError := .text .unexpectedEof "incomplete deflate stream"

/-- The compressed data is damaged. -/
def corruptBody : IoError := .text .invalidInput "corrupt deflate stream"

/-! ## State -/

/-- Where in a member the decoder is. -/
inductive Stage
  /-- In a header in which the source would have blocked. -/
  | header (p : Parser UInt8 MemberDefect Unit)
  | body (z : Inflater)
  | trailer (p : Parser UInt8 MemberDefect Unit)

/-- What the decoder holds between two requests. -/
inductive Holding (σ : Type)
  /-- The input, between two members. -/
  | between (input : Buffered σ)
  /-- A member and the input behind what has been read of it. -/
  | inside (stage : Stage) (input : Buffered σ)
  /-- Nothing: the source panicked while a member was being opened. -/
  | lost

/-- Replace the source of the input. -/
def Holding.mapSource {σ : Type} (f : σ → σ) : Holding σ → Holding σ
  | between input => .between { input with source := f input.source }
  | inside stage input => .inside stage { input with source := f input.source }
  | lost => .lost

/-- What a request came to inside a member. -/
inductive Outcome (σ : Type)
  | result (result : ReadResult) (holding : Holding σ)
  /-- The member is over and nothing has been delivered. -/
  | ended (input : Buffered σ)
  /-- The source panicked while the member was being opened. -/
  | lostSource

variable {σ : Type} [Source σ]

/-! ## Inside a member -/

/-- Read the trailer. -/
def readTrailer (p : Parser UInt8 MemberDefect Unit) (b : Buffered σ) : Outcome σ :=
  match b.parse p with
  | (.done (), _, b) => .ended b
  | (.defect defect, _, b) => .result (.failed defect.toIo) (.between b)
  | (.ended, p, b) => .result (.failed endedInFrame) (.inside (.trailer p) b)
  | (.failed cause, p, b) => .result (.failed cause) (.inside (.trailer p) b)
  | (.panicked, p, b) => .result .panicked (.inside (.trailer p) b)

/-- The trailer that has to follow a body. -/
def trailerOf (payload : Array UInt8) : Parser UInt8 MemberDefect Unit :=
  MemberTrailer.read (crc32 payload.toList 0) payload.size

/-- Deliver at most `n` bytes of the body; behind its end, read the trailer. -/
def readBody (z : Inflater) (b : Buffered σ) (n : Nat) : Outcome σ :=
  match _h : b.fillBuffer with
  | (.delivered slice, b') =>
    match z.inflate slice n with
    | (.corrupt, _, z, rest) =>
      .result (.failed corruptBody) (.inside (.body z) { b' with buffer := rest })
    | (stop, output, z, rest) =>
      if output ≠ [] then
        .result (.delivered output) (.inside (.body z) { b' with buffer := rest })
      else
        match stop with
        | .finished => readTrailer (trailerOf z.history) { b' with buffer := rest }
        | .hungry =>
          if slice = [] then
            .result (.failed endedInBody) (.inside (.body z) { b' with buffer := rest })
          else readBody z { b' with buffer := [] } n
        | _ => .result (.delivered []) (.inside (.body z) { b' with buffer := rest })
  | (result, b') => .result result (.inside (.body z) b')
termination_by b.supply
decreasing_by
  have hs := b.supply_refill b.capacity
  have hb := Buffered.buffer_refill (show b.refill b.capacity = (.delivered slice, b') from _h)
  rw [show b.refill b.capacity = (.delivered slice, b') from _h] at hs
  have : 0 < slice.length := List.length_pos_iff.2 (by assumption)
  simp only [Buffered.supply, hb, List.length_nil] at hs ⊢
  omega

/-- Go on with a header that was interrupted by a source that would have blocked. -/
def readHeader (p : Parser UInt8 MemberDefect Unit) (b : Buffered σ) (n : Nat) : Outcome σ :=
  match b.parse p with
  | (.done (), _, b) => readBody (Inflater.start #[]) b n
  | (.defect defect, p, b) => .result (.failed defect.toIo) (.inside (.header p) b)
  | (.ended, p, b) => .result (.failed endedInFrame) (.inside (.header p) b)
  | (.failed cause, p, b) => .result (.failed cause) (.inside (.header p) b)
  | (.panicked, p, b) => .result .panicked (.inside (.header p) b)

/-- Open a member and deliver at most `n` bytes of it. -/
def openMember (b : Buffered σ) (n : Nat) : Outcome σ :=
  match b.parse MemberHeader.read with
  | (.done (), _, b) => readBody (Inflater.start #[]) b n
  | (.defect defect, _, b) => .result (.failed defect.toIo) (.between b)
  | (.ended, _, b) => .result (.failed endedInFrame) (.between b)
  | (.failed cause, p, b) =>
    if cause.kind = .wouldBlock then readHeader p b n else .result (.failed cause) (.between b)
  | (.panicked, _, _) => .lostSource

/-- Deliver at most `n` bytes of a member that has been opened. -/
def readInside (stage : Stage) (b : Buffered σ) (n : Nat) : Outcome σ :=
  match stage with
  | .header p => readHeader p b n
  | .body z => readBody z b n
  | .trailer p => readTrailer p b

/-! ## What requests leave -/

/-- The weight of one byte of input: all the output it may stand for, and one more. -/
def byteWeight : Nat := Inflater.bytesPerByte + 1

/-- Bounds the output still to come. -/
def Holding.supply : Holding σ → Nat
  | between b => byteWeight * b.supply
  | inside (.body z) b => byteWeight * b.supply + z.supply
  | inside _ b => byteWeight * b.supply
  | lost => 0

/-- The patience of the input. -/
def Holding.patience : Holding σ → Nat
  | between b | inside _ b => b.patience
  | lost => 0

/-- What an outcome leaves of a supply: the output delivered is taken from it, and a member that is
    over has taken some input. -/
def Outcome.Within (supply patience : Nat) : Outcome σ → Prop
  | result r h => h.supply + r.count ≤ supply ∧
      (∀ ⦃cause⦄, r = .interrupted cause → h.supply < supply ∨ h.patience < patience)
  | ended b => byteWeight * b.supply ≤ supply
  | lostSource => True

theorem Outcome.Within.mono {o : Outcome σ} {s s' p p' : Nat} (h : o.Within s p) (hlt : s < s') :
    o.Within s' p' := by
  cases o with
  | result r holding => exact ⟨by have := h.1; omega, fun _ _ => .inl (by have := h.1; omega)⟩
  | ended b => exact Nat.le_trans h (Nat.le_of_lt hlt)
  | lostSource => trivial

theorem Outcome.Within.of_le {o : Outcome σ} {s s' p : Nat} (h : o.Within s p) (hle : s ≤ s') :
    o.Within s' p := by
  cases o with
  | result r holding =>
    exact ⟨by have := h.1; omega, fun _ hr => (h.2 hr).imp (fun hs => by omega) id⟩
  | ended b => exact Nat.le_trans h hle
  | lostSource => trivial

theorem byteWeight_mul_le {m n : Nat} (h : m ≤ n) : byteWeight * m ≤ byteWeight * n :=
  Nat.mul_le_mul_left _ h

theorem byteWeight_mul_lt {m n : Nat} (h : m < n) : byteWeight * m < byteWeight * n :=
  Nat.mul_lt_mul_of_pos_left h (by decide)

theorem within_readTrailer (p : Parser UInt8 MemberDefect Unit) (b : Buffered σ) (patience : Nat) :
    (readTrailer p b).Within (byteWeight * b.supply) patience := by
  have h := byteWeight_mul_le (b.supply_parse p)
  unfold readTrailer
  split
  all_goals
    next hr =>
      rw [hr] at h
      simpa [Outcome.Within, Holding.supply] using h

theorem ended_readTrailer_lt {b b' : Buffered σ} {payload : Array UInt8}
    (h : readTrailer (trailerOf payload) b = .ended b') : b'.supply < b.supply := by
  unfold readTrailer at h
  split at h
  · next b'' hr =>
    cases h
    have := Buffered.supply_parse_lt b (congrArg Prod.fst hr)
    have hr' := congrArg (fun r => r.2.2.supply) hr
    simp only at hr'
    exact hr' ▸ this
  all_goals cases h

/-- What running the inflater on fetched bytes leaves. -/
theorem supply_inflate {z z' : Inflater} {b b' : Buffered σ} {slice output rest : Bytes} {n : Nat}
    {stop : Deflate.Stop} (hb : b.fillBuffer = (.delivered slice, b'))
    (hz : z.inflate slice n = (stop, output, z', rest)) :
    let after : Buffered σ := { b' with buffer := rest }
    byteWeight * after.supply + z'.supply + output.length + (slice.length - rest.length) ≤
      byteWeight * b.supply + z.supply := by
  have hs := b.supply_refill b.capacity
  have hr : b.refill b.capacity = (.delivered slice, b') := hb
  have hbuf := Buffered.buffer_refill hr
  rw [hr] at hs
  have h2 := Inflater.length_rest_le_of_inflate hz
  have h3 := Inflater.supply_inflate_le hz
  simp only [Buffered.supply, hbuf, byteWeight] at *
  have h4 := Nat.mul_le_mul_left (Inflater.bytesPerByte + 1) hs
  rw [Nat.mul_add] at h4 ⊢
  have e1 : (Inflater.bytesPerByte + 1) * slice.length
      = Inflater.bytesPerByte * slice.length + slice.length := by rw [Nat.add_mul, Nat.one_mul]
  have e2 : (Inflater.bytesPerByte + 1) * rest.length
      = Inflater.bytesPerByte * rest.length + rest.length := by rw [Nat.add_mul, Nat.one_mul]
  omega

theorem within_readBody (z : Inflater) (b : Buffered σ) (n : Nat) :
    (readBody z b n).Within (byteWeight * b.supply + z.supply) b.patience := by
  fun_induction readBody z b n with
  | case1 z b slice b' hb output z' rest hz =>
    have h := supply_inflate hb hz
    simp only [Outcome.Within, Holding.supply, ReadResult.count_failed]
    refine ⟨by omega, by simp⟩
  | case2 z b slice b' hb stop output z' rest hs hz hne =>
    have h := supply_inflate hb hz
    simp only [Outcome.Within, Holding.supply, ReadResult.count_delivered]
    refine ⟨by omega, by simp⟩
  | case3 z b slice b' hb output z' rest hne hs hz =>
    have h := supply_inflate hb hz
    exact (within_readTrailer _ _ b.patience).of_le (by omega)
  | case4 z b b' output z' rest hne hb hs hz =>
    have h := supply_inflate hb hz
    simp only [Outcome.Within, Holding.supply, ReadResult.count_failed]
    refine ⟨by omega, by simp⟩
  | case5 z b slice b' hb output z' rest hne hslice hs hz ih =>
    have h := supply_inflate hb hz
    obtain rfl := Inflater.rest_eq_nil_of_inflate_hungry hz
    have : 0 < slice.length := List.length_pos_iff.2 hslice
    refine ih.mono ?_
    simp only [List.length_nil] at h
    omega
  | case6 z b slice b' hb stop output z' rest hs hz hne h1 h2 =>
    have h := supply_inflate hb hz
    simp only [Outcome.Within, Holding.supply, ReadResult.count_delivered, List.length_nil]
    refine ⟨by omega, by simp⟩
  | case7 z b result b' hne hb =>
    have hr : b.refill b.capacity = (result, b') := hb
    have hs := byteWeight_mul_le (b.supply_refill b.capacity)
    have hp := b.patience_refill b.capacity
    rw [hr] at hs hp
    simp only at hs hp
    have hcount : result.count = 0 := by
      cases result with
      | delivered bytes => exact absurd rfl (hne bytes)
      | _ => rfl
    refine ⟨by simp only [Holding.supply, hcount]; omega, ?_⟩
    intro _ hi
    rcases hp hi with h | h
    · have := byteWeight_mul_lt h
      exact .inl (by simp only [Holding.supply]; omega)
    · exact .inr h

/-- A body that is over has been followed by a trailer. -/
theorem ended_readBody_lt {z : Inflater} {b b' : Buffered σ} {n : Nat}
    (h : readBody z b n = .ended b') : b'.supply < b.supply := by
  fun_induction readBody z b n with
  | case3 z b slice b₁ hb output z' rest hne hs hz =>
    have hlt := ended_readTrailer_lt h
    have hle := b.supply_refill b.capacity
    have hr : b.refill b.capacity = (.delivered slice, b₁) := hb
    rw [hr] at hle
    have hrest := Inflater.length_rest_le_of_inflate hz
    simp only [Buffered.supply, Buffered.buffer_refill hr] at hlt hle ⊢
    omega
  | case5 z b slice b₁ hb output z' rest hne hslice hs hz ih =>
    have hlt := ih h
    have hle := b.supply_refill b.capacity
    have hr : b.refill b.capacity = (.delivered slice, b₁) := hb
    rw [hr] at hle
    simp only [Buffered.supply, List.length_nil] at hlt hle ⊢
    omega
  | _ => cases h

theorem supply_start (history : Array UInt8) : (Inflater.start history).supply = 0 := rfl

/-- A body behind a parsed header comes out of the supply before the header. -/
theorem within_readBody_of_parse {p p' : Parser UInt8 MemberDefect Unit} {b b' : Buffered σ}
    (h : b.parse p = (.done (), p', b')) (n : Nat) :
    (readBody (Inflater.start #[]) b' n).Within (byteWeight * b.supply) b.patience := by
  have hw := within_readBody (Inflater.start #[]) b' n
  rw [supply_start, Nat.add_zero] at hw
  cases p with
  | done value =>
    cases h
    exact hw
  | need want next =>
    have hlt := Buffered.supply_parse_lt b (congrArg Prod.fst h)
    rw [h] at hlt
    exact hw.mono (byteWeight_mul_lt hlt)
  | fail defect => cases h
  | refuse defect => cases h

theorem within_readHeader (p : Parser UInt8 MemberDefect Unit) (b : Buffered σ) (n : Nat) :
    (readHeader p b n).Within (byteWeight * b.supply) b.patience := by
  have hs := byteWeight_mul_le (b.supply_parse p)
  unfold readHeader
  split
  · next hr => exact within_readBody_of_parse hr n
  all_goals
    next hr =>
      rw [hr] at hs
      exact ⟨by simpa [Holding.supply] using hs, by simp⟩

/-- A header of which a byte is missing is not interrupted without taking one. -/
theorem within_readHeader_need (want : Nat) (next : UInt8 → Parser UInt8 MemberDefect Unit)
    (b : Buffered σ) (n patience : Nat) :
    (readHeader (.need want next) b n).Within (byteWeight * b.supply) patience := by
  have hs := byteWeight_mul_le (b.supply_parse (.need want next))
  unfold readHeader
  split
  · next hr =>
    have hlt := Buffered.supply_parse_lt b (congrArg Prod.fst hr)
    rw [hr] at hlt
    have hw := within_readBody (Inflater.start #[]) (b.parse (.need want next)).2.2 n
    rw [supply_start, Nat.add_zero, hr] at hw
    exact hw.mono (byteWeight_mul_lt hlt)
  all_goals
    next hr =>
      rw [hr] at hs
      exact ⟨by simpa [Holding.supply] using hs, by simp⟩

theorem ended_readHeader_lt {p : Parser UInt8 MemberDefect Unit} {b b' : Buffered σ} {n : Nat}
    (h : readHeader p b n = .ended b') : b'.supply < b.supply := by
  have hs := b.supply_parse p
  unfold readHeader at h
  split at h
  · next hr =>
    rw [hr] at hs
    exact Nat.lt_of_lt_of_le (ended_readBody_lt h) hs
  all_goals cases h

theorem within_openMember (b : Buffered σ) (n patience : Nat) :
    (openMember b n).Within (byteWeight * b.supply) patience := by
  have hs := byteWeight_mul_le (b.supply_parse MemberHeader.read)
  unfold openMember
  split
  · next b' hr =>
    obtain ⟨want, next, hread⟩ : ∃ want next, MemberHeader.read = .need want next := ⟨_, _, rfl⟩
    rw [hread] at hr
    have hlt := Buffered.supply_parse_lt b (congrArg Prod.fst hr)
    rw [hr] at hlt
    have hw := within_readBody (Inflater.start #[]) b' n
    rw [supply_start, Nat.add_zero] at hw
    exact hw.mono (byteWeight_mul_lt hlt)
  · next hr =>
    rw [hr] at hs
    exact ⟨by simpa [Holding.supply] using hs, by simp⟩
  · next hr =>
    rw [hr] at hs
    exact ⟨by simpa [Holding.supply] using hs, by simp⟩
  · next cause p b' hr =>
    rw [hr] at hs
    simp only at hs
    split
    · obtain ⟨want, next, rfl⟩ := Buffered.need_of_parse_failed hr
      exact (within_readHeader_need want next b' n patience).of_le hs
    · exact ⟨by simpa [Holding.supply] using hs, by simp⟩
  · trivial

theorem ended_openMember_lt {b b' : Buffered σ} {n : Nat} (h : openMember b n = .ended b') :
    b'.supply < b.supply := by
  have hs := b.supply_parse MemberHeader.read
  unfold openMember at h
  split at h
  · next hr =>
    rw [hr] at hs
    exact Nat.lt_of_lt_of_le (ended_readBody_lt h) hs
  · cases h
  · cases h
  · next hr =>
    rw [hr] at hs
    split at h
    · exact Nat.lt_of_lt_of_le (ended_readHeader_lt h) hs
    · cases h
  · cases h

/-- A member that is over has taken input, unless nothing of it was left. -/
theorem ended_readInside {stage : Stage} {b b' : Buffered σ} {n : Nat}
    (h : readInside stage b n = .ended b') : b'.supply < b.supply ∨ b' = b := by
  cases stage with
  | header p => exact .inl (ended_readHeader_lt h)
  | body z => exact .inl (ended_readBody_lt h)
  | trailer p =>
    unfold readInside readTrailer at h
    simp only at h
    split at h
    · next p' b'' hr =>
      cases h
      cases p with
      | done value =>
        cases hr
        exact .inr rfl
      | need want next =>
        have hlt := Buffered.supply_parse_lt b (congrArg Prod.fst hr)
        rw [hr] at hlt
        exact .inl hlt
      | fail defect => cases hr
      | refuse defect => cases hr
    all_goals cases h

theorem within_readInside (stage : Stage) (b : Buffered σ) (n : Nat) :
    (readInside stage b n).Within (Holding.inside stage b).supply b.patience := by
  cases stage with
  | header p => exact within_readHeader p b n
  | body z => exact within_readBody z b n
  | trailer p => exact within_readTrailer p b b.patience

end ParallelGzip
