import ParallelGzip.Proofs.Custody
import ParallelGzip.Proofs.Members

set_option autoImplicit false

/-! # Ownership: who has the input of a decoder

As long as the source does not panic, the input of a decoder is in exactly one of the two places
that `Custody` has for it (`Custody.Held`), whatever the source answers and whatever is asked. What
a single turn can come to is listed in `Custody.Comes`; everything that holds of requests is read
off that list, turn by turn, also that `Members` gives the same answers. -/

namespace ParallelGzip

variable {σ : Type} [Source σ] {b b' : Buffered σ} {n : Nat} {result : ReadResult}

/-! ## Decoders of members -/

namespace MemberDecoder

/-- A calm source is not lost when a member is opened. -/
theorem exists_new (calm : Source.Calm b.source) :
    ∃ made, new b = some made ∧ Source.Calm made.input.source := by
  have answer := Buffered.parse_ne_panicked calm MemberHeader.read
  have calm' := Buffered.kept_parse Source.calm_closed calm MemberHeader.read
  rw [new]
  generalize b.parse MemberHeader.read = parsed at answer calm' ⊢
  obtain ⟨result, p, b'⟩ := parsed
  cases result with
  | done | defect defect | ended | failed cause => exact ⟨_, rfl, calm'⟩
  | panicked => exact absurd rfl answer

theorem calm_read {d d' : MemberDecoder σ} (calm : Source.Calm d.input.source)
    (answer : d.read n = (result, d')) : Source.Calm d'.input.source := by
  obtain ⟨condition, b⟩ := d
  cases condition with
  | unreadable | ended =>
    cases answer
    exact calm
  | inside stage =>
    have keeps : (readInside stage b n).Keeps Source.Calm n :=
      keeps_readInside Source.calm_closed calm stage
    rw [read] at answer
    dsimp only at answer
    generalize readInside stage b n = outcome at keeps answer
    cases keeps with
    | inside some kept | between some kept | ended kept =>
      cases answer
      exact kept

theorem settled_read {d d' : MemberDecoder σ} (answer : d.read n = (result, d'))
    (delivers : result ≠ .delivered []) (cause : IoError) : d'.condition ≠ .unreadable cause := by
  obtain ⟨condition, b⟩ := d
  cases condition with
  | ended =>
    cases answer
    exact absurd rfl delivers
  | unreadable =>
    cases answer
    rintro ⟨⟩
  | inside stage =>
    rw [read] at answer
    dsimp only at answer
    split at answer <;> cases answer <;> rintro ⟨⟩

end MemberDecoder

/-! ## Looking for the next member -/

namespace Buffered

/-- Somebody who has looked at the buffered bytes and dropped some of them, again and again, has
    dropped these in all. -/
inductive Drops : Buffered σ → Bytes → Buffered σ → Prop
  | nil (b : Buffered σ) : Drops b [] b
  | cons {b b' last : Buffered σ} {slice later : Bytes}
      (looked : b.fillBuffer = (.delivered slice, b')) (n : Nat)
      (rest : Drops (b'.consume n) later last) : Drops b (slice.take n ++ later) last

end Buffered

/-- What a search that has found no member tells. -/
def Search.told? : Search → Option ReadResult
  | found => none
  | ended => some (.delivered [])
  | interrupted cause => some (.interrupted cause)
  | failed cause => some (.failed cause)
  | panicked => some .panicked

/-- The source has answered with this behind some padding. -/
def Buffered.AnswersBehind (b : Buffered σ) (padding : Bytes) (result : ReadResult)
    (last : Buffered σ) : Prop :=
  (∀ byte ∈ padding, byte = 0) ∧ ∃ b', b.Drops padding b' ∧ b'.fillBuffer = (result, last)

theorem answersBehind_skipPadding (told : (skipPadding b).1.told? = some result) :
    ∃ padding, b.AnswersBehind padding result (skipPadding b).2 := by
  fun_induction skipPadding b with
  | case1 b b' filled | case4 b cause b' filled | case5 b cause b' filled | case6 b b' filled =>
    cases told
    exact ⟨[], List.forall_mem_nil _, b, .nil b, filled⟩
  | case2 => cases told
  | case3 b c bytes b' filled padding all ih =>
    obtain ⟨later, zeros, last, drops, answer⟩ := ih told
    refine ⟨(c :: bytes).take (c :: bytes).length ++ later, ?_, last, .cons filled _ drops, answer⟩
    rw [List.take_length]
    intro byte member
    rcases List.mem_append.1 member with first | behind
    · have whole : (c :: bytes).takeWhile (· = 0) = c :: bytes :=
        (List.takeWhile_prefix _).eq_of_length_le (Nat.le_of_not_lt all)
      rw [← whole] at first
      exact of_decide_eq_true (List.all_eq_true.1 List.all_takeWhile byte first)
    · exact zeros byte behind

/-- A search that finds no member has dropped padding only, and none before the first member. -/
theorem answersBehind_findMember {started : Nat}
    (told : (findMember b started).1.told? = some result) :
    ∃ padding, (started = 0 → padding = []) ∧
      b.AnswersBehind padding result (findMember b started).2 := by
  rw [findMember] at told ⊢
  split at told
  · next first =>
    rw [if_pos first]
    generalize filled : b.fillBuffer = answer at told
    split at told
    all_goals
      cases told
    all_goals exact ⟨[], fun _ => rfl, List.forall_mem_nil _, b, .nil b, filled⟩
  · next later =>
    rw [if_neg later]
    obtain ⟨padding, answers⟩ := answersBehind_skipPadding told
    exact ⟨padding, fun first => absurd first later, answers⟩

theorem Buffered.calm_findMember (calm : Source.Calm b.source) (started : Nat) :
    Source.Calm (findMember b started).2.source := by
  have filling : ∀ {b b' : Buffered σ} {result : ReadResult}, Source.Calm b.source →
      b.fillBuffer = (result, b') → Source.Calm b'.source := kept_fillBuffer Source.calm_closed
  rw [findMember]
  split
  · generalize filled : b.fillBuffer = answer
    split <;> exact filling calm filled
  · fun_induction skipPadding b with
    | case3 b c bytes b' filled padding all ih =>
      have calm' := filling calm filled
      exact ih calm'
    | case1 b b' filled | case4 b cause b' filled | case5 b cause b' filled | case6 b b' filled =>
      exact filling calm filled
    | case2 b c bytes b' filled padding some =>
      have calm' := filling calm filled
      exact calm'

namespace Custody

variable {c c' looking : Custody σ} {made : MemberDecoder σ}

/-- The input is in exactly one place, and it is there when the decoder is finished. -/
inductive Held : Custody σ → Prop
  | source {b : Buffered σ} (calm : Source.Calm b.source) (members : Nat) (finished : Bool) :
      Held ⟨some b, none, members, finished⟩
  | member {d : MemberDecoder σ} (calm : Source.Calm d.input.source) (members : Nat) :
      Held ⟨none, some d, members, false⟩

/-- When the next member is looked for, the input is there. -/
theorem Held.askMember_none (held : c.Held) (asked : c.askMember n = (none, looking)) :
    ∃ b, Source.Calm b.source ∧ looking = ⟨some b, none, c.members, c.finished⟩ := by
  rcases of_askMember_none asked with ⟨member, rfl⟩ | ⟨d, d', member, ends, rfl⟩
  · cases held with
    | source calm => exact ⟨_, calm, rfl⟩
    | member => cases member
  · cases held with
    | source => cases member
    | member calm =>
      cases member
      exact ⟨_, MemberDecoder.calm_read calm ends, rfl⟩

/-- What looking for the next member comes to when it opens none: some padding has been dropped,
    none before the first member, behind it the source has answered, and nothing else has changed
    but that the end of the input has been seen. -/
def Fruitless (c : Custody σ) (result : ReadResult) (c' : Custody σ) : Prop :=
  ∃ b padding last, c.source = some b ∧ (c.members = 0 → padding = []) ∧
    b.AnswersBehind padding result last ∧
    c' = { c with source := some last, finished := c'.finished } ∧
    (c'.finished = true ↔ result = .delivered [])

/-- What looking for the next member comes to while the input is there. -/
theorem nextMember_of_source (calm : Source.Calm b.source) (members : Nat) :
    (∃ made, nextMember ⟨some b, none, members, false⟩ =
        .opened made ⟨none, some made, members + 1, false⟩ ∧
      Source.Calm made.input.source) ∨
      ∃ result last finished, nextMember ⟨some b, none, members, false⟩ =
          .answered result ⟨some last, none, members, finished⟩ ∧
        Source.Calm last.source ∧
        Fruitless ⟨some b, none, members, false⟩ result ⟨some last, none, members, finished⟩ := by
  have calm' := Buffered.calm_findMember calm members
  have behind : ∀ {result}, (findMember b members).1.told? = some result →
      ∃ padding, (members = 0 → padding = []) ∧
        b.AnswersBehind padding result (findMember b members).2 := answersBehind_findMember
  rw [nextMember]
  dsimp only
  generalize findMember b members = searched at calm' behind ⊢
  obtain ⟨search, last⟩ := searched
  cases search with
  | found =>
    obtain ⟨made, header, calm⟩ := MemberDecoder.exists_new calm'
    dsimp only
    rw [header]
    exact .inl ⟨made, rfl, calm⟩
  | ended =>
    obtain ⟨padding, first, answers⟩ := behind rfl
    exact .inr ⟨_, last, true, rfl, calm', b, padding, last, rfl, first, answers, rfl, by simp⟩
  | interrupted | failed | panicked =>
    obtain ⟨padding, first, answers⟩ := behind rfl
    exact .inr ⟨_, last, false, rfl, calm', b, padding, last, rfl, first, answers, rfl, by simp⟩

/-- What a turn comes to while the input is in exactly one place. -/
inductive Comes (n : Nat) : Custody σ → Turn σ → Prop
  /-- The member answers. -/
  | told {d d' : MemberDecoder σ} {members : Nat} {result : ReadResult}
      (answer : d.read n = (result, d')) (delivers : result ≠ .delivered [])
      (calm : Source.Calm d'.input.source) :
      Comes n ⟨none, some d, members, false⟩ (.answered result ⟨none, some d', members, false⟩)
  | finished {b : Buffered σ} {members : Nat} (calm : Source.Calm b.source) :
      Comes n ⟨some b, none, members, true⟩
        (.answered (.delivered []) ⟨some b, none, members, true⟩)
  | opened {c : Custody σ} {b : Buffered σ} {made : MemberDecoder σ} (going : c.finished = false)
      (asked : c.askMember n = (none, ⟨some b, none, c.members, false⟩))
      (next : nextMember ⟨some b, none, c.members, false⟩ =
        .opened made ⟨none, some made, c.members + 1, false⟩)
      (calm : Source.Calm made.input.source) :
      Comes n c (.opened made ⟨none, some made, c.members + 1, false⟩)
  | fruitless {c : Custody σ} {b last : Buffered σ} {result : ReadResult} {finished : Bool}
      (going : c.finished = false)
      (asked : c.askMember n = (none, ⟨some b, none, c.members, false⟩))
      (next : nextMember ⟨some b, none, c.members, false⟩ =
        .answered result ⟨some last, none, c.members, finished⟩)
      (calm : Source.Calm last.source)
      (fruitless : Fruitless ⟨some b, none, c.members, false⟩ result
        ⟨some last, none, c.members, finished⟩) :
      Comes n c (.answered result ⟨some last, none, c.members, finished⟩)

theorem Held.comes {turn : Turn σ} (held : c.Held) (taken : c.turn n = turn) :
    Comes n c turn := by
  rw [← taken, Custody.turn]
  generalize asked : c.askMember n = answer
  obtain ⟨result?, looking⟩ := answer
  cases result? with
  | some result =>
    obtain ⟨d, d', member, answer, delivers, rfl⟩ := of_askMember_some asked
    cases held with
    | source => cases member
    | member calm members =>
      cases member
      exact .told answer delivers (MemberDecoder.calm_read calm answer)
  | none =>
    obtain ⟨b, calm, rfl⟩ := held.askMember_none asked
    dsimp only
    by_cases finished : c.finished = true
    · rw [if_pos finished]
      cases held with
      | source =>
        cases asked
        cases finished
        exact .finished calm
      | member => cases finished
    · rw [if_neg finished]
      have going := Bool.eq_false_iff.2 finished
      rw [going] at asked ⊢
      rcases nextMember_of_source calm c.members with
        ⟨made, next, calm'⟩ | ⟨result, last, finished, next, calm', fruitless⟩
      · rw [next]
        exact .opened going asked next calm'
      · rw [next]
        exact .fruitless going asked next calm' fruitless

/-- While it answers a request for `n` bytes, the decoder looks for the next member, in this
    state. -/
inductive Looks (n : Nat) (looking : Custody σ) : Custody σ → Prop
  | now {c : Custody σ} (asks : n ≠ 0) (going : c.finished = false)
      (asked : c.askMember n = (none, looking)) : Looks n looking c
  | later {c c' : Custody σ} {made : MemberDecoder σ} (opens : c.turn n = .opened made c')
      (looks : Looks n looking c') : Looks n looking c

/-- Whenever the decoder looks for the next member, the input is there, and it is dropped from only
    if it is padding. -/
theorem Held.looks (held : c.Held) (looks : Looks n looking c) :
    looking.member = none ∧ looking.source.isSome ∧
      ∀ result c', looking.nextMember = .answered result c' → Fruitless looking result c' := by
  induction looks with
  | @now c asks going asked =>
    obtain ⟨b, calm, rfl⟩ := held.askMember_none asked
    refine ⟨rfl, rfl, fun result c' answers => ?_⟩
    rw [going] at answers ⊢
    rcases nextMember_of_source calm c.members with
      ⟨made, next, -⟩ | ⟨result', last, finished, next, -, fruitless⟩
    · cases next.symm.trans answers
    · cases next.symm.trans answers
      exact fruitless
  | later opens looks ih =>
    cases held.comes opens with
    | opened going asked next calm => exact ih (.member calm _)

/-- A header that could not be read is told before the request is answered. -/
def Settled (c : Custody σ) : Prop :=
  c.Held ∧ ∀ d cause, c.member = some d → d.condition ≠ .unreadable cause

/-- What a request leaves. -/
structure Leaves (c : Custody σ) (n : Nat)
    (answer : ReadResult × List (MemberDecoder σ) × Custody σ) : Prop where
  settled : answer.2.2.Settled
  made : ∀ d ∈ answer.2.1, ∃ b, MemberDecoder.new b = some d
  members : answer.2.2.members = c.members + answer.2.1.length
  finished : c.finished = false → answer.2.2.finished = true → answer.1 = .delivered [] ∧
    ∃ looking, Looks n looking c ∧ looking.nextMember = .answered (.delivered []) answer.2.2

theorem Settled.source (calm : Source.Calm b.source) (members : Nat) (finished : Bool) :
    Settled ⟨some b, none, members, finished⟩ :=
  ⟨.source calm members finished, by rintro _ _ ⟨⟩⟩

theorem Held.leaves (held : c.Held) (asks : n ≠ 0) : c.Leaves n (c.read n) := by
  fun_induction Custody.read c n with
  | case1 c zero => exact absurd zero asks
  | case2 c zero result c' turn =>
    cases held.comes turn with
    | told answer delivers calm =>
      refine ⟨⟨.member calm _, ?_⟩, List.forall_mem_nil _, rfl, fun _ finished => by cases finished⟩
      rintro d cause ⟨⟩
      exact MemberDecoder.settled_read answer delivers cause
    | finished calm =>
      exact ⟨.source calm _ _, List.forall_mem_nil _, rfl, fun going => by cases going⟩
    | fruitless going asked next calm fruitless =>
      refine ⟨.source calm _ _, List.forall_mem_nil _, rfl, fun _ ends => ?_⟩
      obtain ⟨-, -, -, -, -, -, -, empty⟩ := fruitless
      cases empty.1 ends
      exact ⟨rfl, _, .now zero going asked, next⟩
  | case3 c zero made c' turn result later last answer ih =>
    cases held.comes turn with
    | opened going asked next calm =>
      rw [answer] at ih
      obtain ⟨settled, made, members, finished⟩ := ih (.member calm _)
      refine ⟨settled, ?_, ?_, fun _ ends => ?_⟩
      · obtain ⟨-, b, -, -, header, -⟩ := of_nextMember_opened next
        exact List.forall_mem_cons.2 ⟨⟨b, header⟩, made⟩
      · rw [members, List.length_cons]
        dsimp only
        omega
      · obtain ⟨result, looking, looks, next⟩ := finished rfl ends
        exact ⟨result, looking, .later turn looks, next⟩

end Custody

/-! ## The machine answers as `Members` does -/

/-- What is held of a member. -/
def MemberDecoder.holding : MemberDecoder σ → Holding σ
  | ⟨.inside stage, b⟩ => .inside stage b
  | ⟨_, b⟩ => .between b

/-- The same decoder, with one place for the input. -/
def Custody.asMembers (c : Custody σ) : Members σ :=
  match c.member, c.source with
  | some d, _ => ⟨d.holding, c.members, c.finished⟩
  | none, some b => ⟨.between b, c.members, c.finished⟩
  | none, none => ⟨.lost, c.members, c.finished⟩

/-- A member is opened and asked at once. -/
theorem openMember_of_new {made : MemberDecoder σ} (header : MemberDecoder.new b = some made) :
    openMember b n =
      match made.condition with
      | .inside stage => readInside stage made.input n
      | .unreadable cause => .result (.failed cause) (.between made.input)
      | .ended => .ended made.input := by
  rw [openMember]
  rw [MemberDecoder.new] at header
  generalize b.parse MemberHeader.read = parsed at header ⊢
  obtain ⟨result, p, b'⟩ := parsed
  cases result with
  | done | defect | ended =>
    cases header
    rfl
  | failed cause =>
    cases header
    dsimp only
    by_cases blocks : cause.kind = .wouldBlock
    · rw [if_pos blocks, if_pos blocks]
      rfl
    · rw [if_neg blocks, if_neg blocks]
  | panicked => cases header

namespace Custody

variable {c c' looking : Custody σ} {made : MemberDecoder σ}

/-- The answer that a request for `n` bytes must come to. A header that could not be read is told
    first. -/
def due (c : Custody σ) (n : Nat) : ReadResult × Members σ :=
  match c.member with
  | some ⟨.unreadable cause, _⟩ => (.failed cause, c.asMembers)
  | _ => c.asMembers.read n

theorem due_source (asks : n ≠ 0) (b : Buffered σ) (members : Nat) :
    due ⟨some b, none, members, false⟩ n = Members.readNext b members n :=
  if_neg asks

theorem due_ended (asks : n ≠ 0) (b : Buffered σ) (members : Nat) :
    due ⟨none, some ⟨.ended, b⟩, members, false⟩ n = Members.readNext b members n :=
  if_neg asks

theorem due_inside (asks : n ≠ 0) (stage : Stage) (b : Buffered σ) (members : Nat) :
    due ⟨none, some ⟨.inside stage, b⟩, members, false⟩ n =
      match readInside stage b n with
      | .result result holding => (result, ⟨holding, members, false⟩)
      | .ended b => Members.readNext b members n
      | .lostSource => (.panicked, ⟨.lost, members, false⟩) := by
  refine (if_neg asks).trans ?_
  cases readInside stage b n <;> rfl

theorem due_told (asks : n ≠ 0) {d d' : MemberDecoder σ} (answer : d.read n = (result, d'))
    (delivers : result ≠ .delivered []) (members : Nat) :
    due ⟨none, some d, members, false⟩ n =
      (result, asMembers ⟨none, some d', members, false⟩) := by
  obtain ⟨condition, b⟩ := d
  cases condition with
  | ended =>
    cases answer
    exact absurd rfl delivers
  | unreadable =>
    cases answer
    rfl
  | inside stage =>
    have keeps := keepsInput_readInside stage b n
    rw [due_inside asks]
    rw [MemberDecoder.read] at answer
    dsimp only at answer
    generalize readInside stage b n = outcome at keeps answer ⊢
    cases keeps with
    | inside | between =>
      cases answer
      rfl
    | ended =>
      cases answer
      exact absurd rfl delivers

/-- Taking back the input of a member that is over changes nothing. -/
theorem Held.due_askMember (held : c.Held) (going : c.finished = false) (asks : n ≠ 0)
    (asked : c.askMember n = (none, looking)) : c.due n = looking.due n := by
  rcases of_askMember_none asked with ⟨-, rfl⟩ | ⟨d, d', member, ends, rfl⟩
  · rfl
  cases held with
  | source => cases member
  | member calm members =>
    cases member
    rw [due_source asks]
    obtain ⟨condition, b⟩ := d
    cases condition with
    | ended =>
      cases ends
      exact due_ended asks b members
    | unreadable => cases ends
    | inside stage =>
      have keeps := keepsInput_readInside stage b n
      rw [due_inside asks]
      rw [MemberDecoder.read] at ends
      dsimp only at ends
      generalize readInside stage b n = outcome at keeps ends ⊢
      cases keeps with
      | inside delivers | between delivers =>
        cases ends
        exact absurd (delivers rfl) asks
      | ended =>
        cases ends
        rfl

/-- A member that is opened answers next. -/
theorem due_opened (asks : n ≠ 0) {b : Buffered σ} {members : Nat}
    (next : nextMember ⟨some b, none, members, false⟩ =
      .opened made ⟨none, some made, members + 1, false⟩) :
    due ⟨some b, none, members, false⟩ n = due ⟨none, some made, members + 1, false⟩ n := by
  obtain ⟨b', b'', source, found, header, -⟩ := of_nextMember_opened next
  cases source
  rw [due_source asks, Members.readNext_eq, found]
  dsimp only
  rw [openMember_of_new header]
  obtain ⟨condition, input⟩ := made
  cases condition with
  | ended => exact (due_ended asks input (members + 1)).symm
  | unreadable => rfl
  | inside stage =>
    have keeps := keepsInput_readInside stage input n
    rw [due_inside asks]
    dsimp only
    generalize readInside stage input n = outcome at keeps ⊢
    cases keeps <;> rfl

theorem due_fruitless (asks : n ≠ 0) {b last : Buffered σ} {members : Nat} {finished : Bool}
    (next : nextMember ⟨some b, none, members, false⟩ =
      .answered result ⟨some last, none, members, finished⟩) :
    due ⟨some b, none, members, false⟩ n =
      (result, asMembers ⟨some last, none, members, finished⟩) := by
  rw [due_source asks, Members.readNext_eq]
  unfold nextMember at next
  dsimp only at next
  generalize findMember b members = searched at next ⊢
  obtain ⟨search, b'⟩ := searched
  cases search with
  | found =>
    dsimp only at next
    split at next <;> cases next
  | _ =>
    cases next
    rfl

/-- Every request is answered as it must be. -/
theorem Held.read_eq_due (held : c.Held) (asks : n ≠ 0) :
    c.due n = ((c.read n).1, (c.read n).2.2.asMembers) := by
  fun_induction Custody.read c n with
  | case1 c zero => exact absurd zero asks
  | case2 c zero result c' turn =>
    cases held.comes turn with
    | told answer delivers calm => exact due_told asks answer delivers _
    | finished calm => rw [due, asMembers, Members.read, if_neg asks]
    | fruitless going asked next calm fruitless =>
      rw [held.due_askMember going asks asked]
      exact due_fruitless asks next
  | case3 c zero made c' turn result later last answer ih =>
    cases held.comes turn with
    | opened going asked next calm =>
      rw [answer] at ih
      rw [held.due_askMember going asks asked, due_opened asks next]
      exact ih (.member calm _)

/-! ## Any requests -/

theorem Settled.read (settled : c.Settled) (n : Nat) :
    c.Leaves n (c.read n) ∧
      c.asMembers.read n = ((c.read n).1, (c.read n).2.2.asMembers) := by
  by_cases zero : n = 0
  · have answer : c.asMembers.read n = (.delivered [], c.asMembers) := if_pos zero
    rw [Custody.read, dif_pos zero]
    refine ⟨⟨settled, List.forall_mem_nil _, rfl, fun going ends => ?_⟩, answer⟩
    cases going.symm.trans ends
  · refine ⟨settled.1.leaves zero, ?_⟩
    rw [← settled.1.read_eq_due zero, due]
    split
    · next cause b member => exact absurd rfl (settled.2 _ cause member)
    · rfl

theorem Settled.readAll (settled : c.Settled) (sizes : List Nat) :
    ∃ results made last, c.readAll sizes = (results, made, last) ∧ last.Settled ∧
      (∀ d ∈ made, ∃ b, MemberDecoder.new b = some d) ∧
      last.members = c.members + made.length ∧
      c.asMembers.readAll sizes = (results, last.asMembers) := by
  induction sizes generalizing c with
  | nil => exact ⟨[], [], c, rfl, settled, List.forall_mem_nil _, rfl, rfl⟩
  | cons n sizes ih =>
    obtain ⟨leaves, agrees⟩ := settled.read n
    obtain ⟨results, made, last, reads, settled', made', members, agrees'⟩ := ih leaves.settled
    refine ⟨(c.read n).1 :: results, (c.read n).2.1 ++ made, last, ?_, settled', ?_, ?_, ?_⟩
    · rw [Custody.readAll]
      simp only [reads]
    · exact List.forall_mem_append.2 ⟨leaves.made, made'⟩
    · rw [members, leaves.members, List.length_append, Nat.add_assoc]
    · rw [Members.readAll, agrees]
      simp only [agrees']

/-- A decoder that is finished does not touch its input any more. -/
theorem Held.read_of_finished (held : c.Held) (finished : c.finished = true) (n : Nat) :
    c.read n = (.delivered [], [], c) := by
  have ends : c.turn n = .answered (.delivered []) c := by
    generalize taken : c.turn n = turn
    cases held.comes taken with
    | finished => rfl
    | told => cases finished
    | opened going | fruitless going => cases going.symm.trans finished
  rw [Custody.read]
  split
  · rfl
  · split
    · next turn =>
      cases ends.symm.trans turn
      rfl
    · next turn => cases ends.symm.trans turn

/-- As long as the source does not panic, whatever else it answers, requests of any sizes in any
    order are answered as by `Members`, after failures as well. Between them the input is in exactly
    one place, and as many members have been counted as have been opened. A request never counts
    back. Once the decoder is finished, requests deliver nothing and leave everything as it is; it
    becomes finished only when it looks for a member and finds the end of the input. Whenever it
    looks for a member, the input is there, and if no member is opened, then nothing has been
    dropped but padding. -/
theorem input_in_one_place {b : Buffered σ} (calm : Source.Calm b.source) (sizes : List Nat) :
    ∃ results made c, (new b).readAll sizes = (results, made, c) ∧
      (Members.new b).readAll sizes = (results, c.asMembers) ∧
      (c.source.isSome = true ↔ c.member = none) ∧
      c.members = made.length ∧ (∀ d ∈ made, ∃ b, MemberDecoder.new b = some d) ∧
      ∀ n,
        c.members ≤ (c.read n).2.2.members ∧
        (c.finished = true → c.read n = (.delivered [], [], c)) ∧
        (c.finished = false → (c.read n).2.2.finished = true → (c.read n).1 = .delivered [] ∧
          ∃ looking, Looks n looking c ∧
            looking.nextMember = .answered (.delivered []) (c.read n).2.2) ∧
        ∀ looking, Looks n looking c → looking.member = none ∧ looking.source.isSome ∧
          ∀ result c', looking.nextMember = .answered result c' → Fruitless looking result c' := by
  have start : (new b).Settled := .source calm 0 false
  obtain ⟨results, made, c, reads, settled, created, members, agrees⟩ := start.readAll sizes
  refine ⟨results, made, c, reads, agrees, ?_, ?_, created, fun n => ⟨?_, ?_, ?_, ?_⟩⟩
  · cases settled.1 <;> simp
  · rw [members]
    exact Nat.zero_add _
  · rw [(settled.read n).1.members]
    exact Nat.le_add_right _ _
  · exact fun finished => settled.1.read_of_finished finished n
  · exact (settled.read n).1.finished
  · exact fun looking looks => settled.1.looks looks

/-- A source that would have blocked, then serves a byte alone, then is interrupted. -/
theorem input_in_one_place_halting :
    let input : Buffered Scheduled :=
      ⟨⟨[0x1f, 0x8b, 8, 0], [.blocked, .serve 0, .interrupted]⟩, 2, []⟩
    Source.Calm input.source ∧
      ∃ results made c, (new input).readAll [1, 0, 5, 5, 5] = (results, made, c) ∧
        (Members.new input).readAll [1, 0, 5, 5, 5] = (results, c.asMembers) ∧
        (c.source.isSome = true ↔ c.member = none) ∧ c.members = made.length := by
  intro input
  obtain ⟨results, made, c, reads, agrees, one, members, -⟩ :=
    input_in_one_place (Scheduled.calm input.source) [1, 0, 5, 5, 5]
  exact ⟨input.source.calm, results, made, c, reads, agrees, one, members⟩

end Custody

end ParallelGzip
