import ParallelGzip.Members
import ParallelGzip.Proofs.Deflate.Drain
import ParallelGzip.Proofs.Stream.Calm

set_option autoImplicit false

/-! # Custody: two places for the input of a decoder

A decoder for a sequence of members hands its input to the decoder of each member, and takes it back
when the member is over. `Custody` has the two places for the input, and takes one turn at a time:
it asks the member, if there is one, and looks for the next. If there were no input in either place,
it would take that for the end.

A turn that opens a member is followed by another; each such turn leaves less to come, so that every
request is answered. -/

namespace ParallelGzip

open Deflate (Inflater)

variable {σ : Type} [Source σ]

/-! ## The machine -/

/-- What the decoder of a member has come to. -/
inductive Condition
  | inside (stage : Stage)
  /-- The header could not be read, which is still to be told. -/
  | unreadable (cause : IoError)
  | ended

/-- The decoder of a member, with the input. -/
structure MemberDecoder (σ : Type) where
  condition : Condition
  input : Buffered σ

namespace MemberDecoder

/-- A decoder that has read the header, unless the source panicked. -/
def new (b : Buffered σ) : Option (MemberDecoder σ) :=
  match b.parse MemberHeader.read with
  | (.done (), _, b) => some ⟨.inside (.body (Inflater.start #[])), b⟩
  | (.defect defect, _, b) => some ⟨.unreadable defect.toIo, b⟩
  | (.ended, _, b) => some ⟨.unreadable endedInFrame, b⟩
  | (.failed cause, p, b) =>
    some ⟨if cause.kind = .wouldBlock then .inside (.header p) else .unreadable cause, b⟩
  | (.panicked, _, _) => none

/-- Ask for at most `n` bytes of the member; when it is over, there are none. -/
def read (d : MemberDecoder σ) (n : Nat) : ReadResult × MemberDecoder σ :=
  match d.condition with
  | .inside stage =>
    match readInside stage d.input n with
    | .result result (.inside stage b) => (result, ⟨.inside stage, b⟩)
    | .result result (.between b) => (result, ⟨.ended, b⟩)
    | .ended b => (.delivered [], ⟨.ended, b⟩)
    | .result result .lost => (result, d)
    | .lostSource => (.panicked, d)
  | .unreadable cause => (.failed cause, ⟨.ended, d.input⟩)
  | .ended => (.delivered [], d)

/-- Bounds the members still to come. A header that has been read has taken some input; one that
    has not is not passed over. -/
def load : MemberDecoder σ → Nat
  | ⟨.inside (.header _), b⟩ | ⟨.unreadable _, b⟩ => 2 * b.supply
  | ⟨_, b⟩ => 2 * b.supply + 1

end MemberDecoder

/-- A decoder for a sequence of members, with a place for the input and a place for the decoder of a
    member. -/
structure Custody (σ : Type) where
  source : Option (Buffered σ)
  member : Option (MemberDecoder σ)
  /-- Members opened so far. -/
  members : Nat
  /-- Whether the end of the input has been seen where a member could have begun. -/
  finished : Bool

namespace Custody

/-- What a turn comes to. -/
inductive Turn (σ : Type)
  | answered (result : ReadResult) (after : Custody σ)
  /-- A member has been opened, and another turn follows. -/
  | opened (made : MemberDecoder σ) (after : Custody σ)

/-- A decoder at the start of its input. -/
def new (input : Buffered σ) : Custody σ := ⟨some input, none, 0, false⟩

/-- Open the next member if the input holds one. -/
def nextMember (c : Custody σ) : Turn σ :=
  match c.source with
  | none => .answered (.delivered []) c
  | some b =>
    match findMember b c.members with
    | (.found, b) =>
      match MemberDecoder.new b with
      | some made => .opened made ⟨none, some made, c.members + 1, c.finished⟩
      | none => .answered .panicked { c with source := none }
    | (.ended, b) => .answered (.delivered []) { c with source := some b, finished := true }
    | (.interrupted cause, b) => .answered (.interrupted cause) { c with source := some b }
    | (.failed cause, b) => .answered (.failed cause) { c with source := some b }
    | (.panicked, b) => .answered .panicked { c with source := some b }

/-- Ask the member, if there is one. A member that has nothing to deliver is over, and its input is
    taken back. -/
def askMember (c : Custody σ) (n : Nat) : Option ReadResult × Custody σ :=
  match c.member with
  | none => (none, c)
  | some d =>
    match d.read n with
    | (.delivered [], d) => (none, { c with source := some d.input, member := none })
    | (result, d) => (some result, { c with member := some d })

/-- One turn of a request for at most `n` bytes. -/
def turn (c : Custody σ) (n : Nat) : Turn σ :=
  match c.askMember n with
  | (some result, c) => .answered result c
  | (none, c) => if c.finished then .answered (.delivered []) c else c.nextMember

/-- Bounds the members still to come. -/
def load (c : Custody σ) : Nat :=
  match c.member, c.source with
  | some d, _ => d.load
  | none, some b => 2 * b.supply + 1
  | none, none => 0

end Custody

/-! ## What requests inside a member keep -/

section Keeps

variable {good : σ → Prop} {b : Buffered σ} {n : Nat}

/-- What a request for `n` bytes comes to inside a member: the input is not lost, and nothing is
    delivered only to those who ask for nothing. -/
inductive Outcome.Keeps (good : σ → Prop) (n : Nat) : Outcome σ → Prop
  | inside {result : ReadResult} {stage : Stage} {b : Buffered σ}
      (some : result = .delivered [] → n = 0) (kept : good b.source) :
      Keeps good n (.result result (.inside stage b))
  | between {result : ReadResult} {b : Buffered σ}
      (some : result = .delivered [] → n = 0) (kept : good b.source) :
      Keeps good n (.result result (.between b))
  | ended {b : Buffered σ} (kept : good b.source) : Keeps good n (.ended b)

theorem keeps_readTrailer (closed : Source.Closed good) (kept : good b.source)
    (p : Parser UInt8 MemberDefect Unit) : (readTrailer p b).Keeps good n := by
  have kept' := Buffered.kept_parse closed kept p
  rw [readTrailer]
  generalize b.parse p = parsed at kept' ⊢
  obtain ⟨result, p', b'⟩ := parsed
  cases result with
  | done => exact .ended kept'
  | defect defect => exact .between (by rintro ⟨⟩) kept'
  | ended | failed cause | panicked => exact .inside (by rintro ⟨⟩) kept'

theorem keeps_readBody (closed : Source.Closed good) (kept : good b.source) (z : Inflater) :
    (readBody z b n).Keeps good n := by
  fun_induction readBody z b n with
  | case1 z b slice b' filled =>
    have kept' := Buffered.kept_fillBuffer closed kept filled
    exact .inside (by rintro ⟨⟩) kept'
  | case2 z b slice b' filled stop output z' rest sound inflated some =>
    have kept' := Buffered.kept_fillBuffer closed kept filled
    exact .inside (fun nothing => absurd (ReadResult.delivered.inj nothing) some) kept'
  | case3 z b slice b' filled output z' rest =>
    have kept' := Buffered.kept_fillBuffer closed kept filled
    exact keeps_readTrailer (b := { b' with buffer := rest }) closed kept' (trailerOf z'.history)
  | case4 z b b' output z' rest none filled =>
    have kept' := Buffered.kept_fillBuffer closed kept filled
    exact .inside (by rintro ⟨⟩) kept'
  | case5 z b slice b' filled output z' rest none nonempty _ inflated ih =>
    have kept' := Buffered.kept_fillBuffer closed kept filled
    exact ih kept'
  | case6 z b slice b' filled stop output z' rest sound inflated none finished hungry =>
    have kept' := Buffered.kept_fillBuffer closed kept filled
    refine .inside (fun _ => ?_) kept'
    obtain rfl := Decidable.not_not.1 none
    cases stop with
    | full =>
      -- there is room for a byte in every request for something
      refine Nat.eq_zero_of_not_pos fun pos => ?_
      exact Inflater.output_ne_nil_of_full inflated pos rfl
    | finished => exact (finished rfl).elim
    | hungry => exact (hungry rfl).elim
    | corrupt => exact (sound rfl).elim
  | case7 z b result b' other filled =>
    exact .inside (fun nothing => (other [] nothing).elim)
      (Buffered.kept_fillBuffer closed kept filled)

theorem keeps_readInside (closed : Source.Closed good) (kept : good b.source) (stage : Stage) :
    (readInside stage b n).Keeps good n := by
  cases stage with
  | body z => exact keeps_readBody closed kept z
  | trailer p => exact keeps_readTrailer closed kept p
  | header p =>
    have kept' := Buffered.kept_parse closed kept p
    rw [readInside, readHeader]
    generalize b.parse p = parsed at kept' ⊢
    obtain ⟨result, p', b'⟩ := parsed
    cases result with
    | done => exact keeps_readBody closed kept' _
    | defect defect | ended | failed cause | panicked => exact .inside (by rintro ⟨⟩) kept'

/-- Whatever the source does, the input is not lost inside a member. -/
theorem keepsInput_readInside (stage : Stage) (b : Buffered σ) (n : Nat) :
    (readInside stage b n).Keeps (fun _ => True) n :=
  keeps_readInside (fun _ _ _ => trivial) trivial stage

end Keeps

/-! ## Requests come to an end -/

variable {b b' : Buffered σ} {n : Nat} {result : ReadResult}

theorem MemberDecoder.load_new {made : MemberDecoder σ} (opened : new b = some made) :
    made.load ≤ 2 * b.supply := by
  obtain ⟨want, next, header⟩ : ∃ want next, MemberHeader.read = .need want next := ⟨_, _, rfl⟩
  have taken := b.supply_parse MemberHeader.read
  have less : (b.parse MemberHeader.read).1 = .done () →
      (b.parse MemberHeader.read).2.2.supply < b.supply := by
    rw [header]
    exact Buffered.supply_parse_lt b
  rw [new] at opened
  generalize b.parse MemberHeader.read = parsed at taken less opened
  obtain ⟨result, p, b'⟩ := parsed
  cases result with
  | done =>
    cases opened
    have less := less rfl
    simp only [load] at less ⊢
    omega
  | defect | ended =>
    cases opened
    exact Nat.mul_le_mul_left 2 taken
  | failed cause =>
    cases opened
    split <;> exact Nat.mul_le_mul_left 2 taken
  | panicked => cases opened

/-- A decoder that has nothing to deliver leaves less to come. -/
theorem MemberDecoder.load_of_ended {d d' : MemberDecoder σ} (asks : n ≠ 0)
    (ends : d.read n = (.delivered [], d')) : 2 * d'.input.supply < d.load := by
  obtain ⟨condition, b⟩ := d
  cases condition with
  | ended =>
    cases ends
    exact Nat.lt_succ_self _
  | unreadable cause => cases ends
  | inside stage =>
    have keeps := keepsInput_readInside stage b n
    rw [read] at ends
    dsimp only at ends
    generalize outcome : readInside stage b n = o at keeps ends
    cases keeps with
    | inside some | between some =>
      cases ends
      exact absurd (some rfl) asks
    | ended =>
      cases ends
      cases stage with
      | header p =>
        have taken := ended_readHeader_lt outcome
        simp only [load]
        omega
      | body | trailer =>
        simp only [load]
        rcases ended_readInside outcome with less | rfl <;> omega

namespace Custody

variable {c c' : Custody σ} {made : MemberDecoder σ}

/-- How a member is opened. -/
theorem of_nextMember_opened (opens : c.nextMember = .opened made c') :
    ∃ b b', c.source = some b ∧ findMember b c.members = (.found, b') ∧
      MemberDecoder.new b' = some made ∧ c' = ⟨none, some made, c.members + 1, c.finished⟩ := by
  unfold nextMember at opens
  split at opens
  · cases opens
  · next b source =>
    split at opens
    · next b' search =>
      split at opens
      · next made' header =>
        cases opens
        exact ⟨b, b', source, search, header, rfl⟩
      · cases opens
    all_goals cases opens

/-- When the next member is looked for, the input has been taken back from the last. -/
theorem of_askMember_none {looking : Custody σ} (asked : c.askMember n = (none, looking)) :
    (c.member = none ∧ looking = c) ∨
      ∃ d d', c.member = some d ∧ d.read n = (.delivered [], d') ∧
        looking = ⟨some d'.input, none, c.members, c.finished⟩ := by
  unfold askMember at asked
  split at asked
  · next member =>
    cases asked
    exact .inl ⟨member, rfl⟩
  · next d member =>
    split at asked
    · next d' ends =>
      cases asked
      exact .inr ⟨d, d', member, ends, rfl⟩
    · cases asked

theorem of_askMember_some (asked : c.askMember n = (some result, c')) :
    ∃ d d', c.member = some d ∧ d.read n = (result, d') ∧ result ≠ .delivered [] ∧
      c' = { c with member := some d' } := by
  unfold askMember at asked
  split at asked
  · cases asked
  · next d member =>
    split at asked
    · cases asked
    · next result' d' some answer =>
      cases asked
      exact ⟨d, d', member, answer, fun nothing => some (nothing ▸ rfl), rfl⟩

theorem of_turn_opened (opens : c.turn n = .opened made c') :
    ∃ looking, c.askMember n = (none, looking) ∧ looking.finished = false ∧
      looking.nextMember = .opened made c' := by
  unfold turn at opens
  split at opens
  · cases opens
  · next looking asked =>
    split at opens
    · cases opens
    · next going => exact ⟨looking, asked, by simpa using going, opens⟩

theorem load_turn (asks : n ≠ 0) (opens : c.turn n = .opened made c') : c'.load < c.load := by
  obtain ⟨looking, asked, -, next⟩ := of_turn_opened opens
  obtain ⟨b, b', source, found, header, rfl⟩ := of_nextMember_opened next
  have few : made.load ≤ 2 * b.supply := by
    have taken := (supply_findMember b looking.members).1
    rw [found] at taken
    exact Nat.le_trans (MemberDecoder.load_new header) (Nat.mul_le_mul_left 2 taken)
  refine Nat.lt_of_le_of_lt few ?_
  rcases of_askMember_none asked with ⟨member, rfl⟩ | ⟨d, d', member, ends, rfl⟩
  · simp only [load, member, source]
    omega
  · cases source
    simp only [load, member]
    exact MemberDecoder.load_of_ended asks ends

/-- Ask for at most `n` bytes. Beside the result come the members that have been opened on the
    way. -/
def read (c : Custody σ) (n : Nat) : ReadResult × List (MemberDecoder σ) × Custody σ :=
  if _zero : n = 0 then (.delivered [], [], c)
  else
    match _turn : c.turn n with
    | .answered result c => (result, [], c)
    | .opened made c =>
      let (result, later, c) := c.read n
      (result, made :: later, c)
termination_by c.load
decreasing_by exact load_turn _zero _turn

/-- Requests of these sizes, one after the other, whatever they come to: the results, the members
    that have been opened, and the decoder. -/
def readAll (c : Custody σ) :
    (sizes : List Nat) → List ReadResult × List (MemberDecoder σ) × Custody σ
  | [] => ([], [], c)
  | n :: sizes =>
    let (result, made, c) := c.read n
    let (results, later, c) := c.readAll sizes
    (result :: results, made ++ later, c)

end Custody

/-- Requests of these sizes, one after the other, whatever they come to. -/
def Members.readAll (m : Members σ) : (sizes : List Nat) → List ReadResult × Members σ
  | [] => ([], m)
  | n :: sizes =>
    let (result, m) := m.read n
    let (results, m) := m.readAll sizes
    (result :: results, m)

end ParallelGzip
