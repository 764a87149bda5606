import ParallelGzip.Proofs.Member.Prospect
import ParallelGzip.Proofs.Members

set_option autoImplicit false

/-! # Verdicts: what a decoder makes of the data before it

`verdictOn` is what a sequence of members comes to as a whole: the payload, the failure if there is
one, and how many members have been opened by then. It is a function of the data. A request to a
decoder delivers a piece of the verdict, or finds the end that it tells of, or is refused by the
source and may be made again (`Members.Holds.read`): where the source cuts the data, how much it is
asked for at a time and where it refuses does not show in the verdict. -/

namespace ParallelGzip

/-! ## Whole streams -/

/-- What a decoder comes to. -/
structure Verdict where
  payload : Bytes
  failure : Option IoError
  /-- The number of members opened. -/
  members : Nat

/-- The verdict with this piece of payload in front. -/
def Verdict.behind (chunk : Bytes) (v : Verdict) : Verdict :=
  { v with payload := chunk ++ v.payload }

/-- How reading on to the end stops. -/
def Verdict.ending (v : Verdict) : Ending :=
  match v.failure with
  | none => .ended
  | some cause => .failed cause

theorem Verdict.behind_behind (first second : Bytes) (v : Verdict) :
    (v.behind second).behind first = v.behind (first ++ second) := by
  rw [behind, behind, behind, List.append_assoc]

/-- Where the next member has to begin: behind the padding, of which there is none before the first
    one. -/
def beginning (started : Nat) (data : Bytes) : Bytes :=
  if started = 0 then data else data.dropWhile (· = 0)

theorem length_beginning_le (started : Nat) (data : Bytes) :
    (beginning started data).length ≤ data.length := by
  rw [beginning]
  split
  · exact Nat.le_refl _
  · exact (List.dropWhile_suffix _).length_le

theorem beginning_nil (started : Nat) : beginning started [] = [] := ite_self _

/-- Nothing is passed over in front of a member. -/
theorem beginning_of_cons (started : Nat) (rest : Bytes) :
    beginning started (0x1f :: rest) = 0x1f :: rest := ite_self _

/-- A member takes at least one byte. -/
theorem Prospect.length_lt_of_ended {data payload rest : Bytes}
    (ends : ofHeader MemberHeader.read data = ⟨payload, .ended rest⟩) :
    rest.length < data.length := by
  obtain ⟨header, behind, z, trailer, rfl, reads, result, -⟩ := ofHeader_eq_ended_iff.1 ends
  have body := (Deflate.Inflater.start #[]).length_drain_le behind
  rw [result] at body
  cases reads with
  | need =>
    dsimp only at body
    rw [List.length_append] at body
    rw [List.length_append, List.length_cons]
    omega

/-- The verdict on a stream of which so many members have been opened. -/
def verdictOn (started : Nat) (data : Bytes) : Verdict :=
  if beginning started data = [] then ⟨[], none, started⟩
  else
    match _h : Prospect.ofHeader MemberHeader.read (beginning started data) with
    | ⟨payload, .failed cause⟩ => ⟨payload, some cause, started + 1⟩
    | ⟨payload, .ended rest⟩ => (verdictOn (started + 1) rest).behind payload
termination_by data.length
decreasing_by
  exact Nat.lt_of_lt_of_le (Prospect.length_lt_of_ended _h) (length_beginning_le started data)

/-- The verdict behind this prospect. -/
def Prospect.verdict (started : Nat) (prospect : Prospect) : Verdict :=
  match prospect with
  | ⟨payload, .failed cause⟩ => ⟨payload, some cause, started⟩
  | ⟨payload, .ended rest⟩ => (verdictOn started rest).behind payload

theorem Prospect.verdict_behind (started : Nat) (chunk : Bytes) (prospect : Prospect) :
    (prospect.behind chunk).verdict started = (prospect.verdict started).behind chunk := by
  obtain ⟨payload, fate⟩ := prospect
  cases fate with
  | ended rest =>
    rw [behind, verdict, verdict, Verdict.behind_behind]
  | failed cause => rfl

theorem verdictOn_of_nil {started : Nat} {data : Bytes} (none : beginning started data = []) :
    verdictOn started data = ⟨[], .none, started⟩ := by
  rw [verdictOn, if_pos none]

theorem verdictOn_of_ne_nil {started : Nat} {data : Bytes} (some : beginning started data ≠ []) :
    verdictOn started data =
      (Prospect.ofHeader MemberHeader.read (beginning started data)).verdict (started + 1) := by
  rw [verdictOn, if_neg some]
  unfold Prospect.verdict
  split <;> next result => rw [result]

/-- The verdict where a member begins. -/
theorem verdictOn_of_cons {started : Nat} {data rest : Bytes} (begins : data = 0x1f :: rest) :
    verdictOn started data =
      (Prospect.ofHeader MemberHeader.read data).verdict (started + 1) := by
  have start : beginning started data = data := begins ▸ beginning_of_cons started rest
  have some : beginning started data ≠ [] := by
    rw [start, begins]
    exact List.cons_ne_nil _ _
  rw [verdictOn_of_ne_nil some, start]

/-- Padding in front of the next member makes no difference. -/
theorem verdictOn_congr {started : Nat} {data data' : Bytes}
    (same : beginning started data' = beginning started data) :
    verdictOn started data' = verdictOn started data := by
  by_cases none : beginning started data = []
  · rw [verdictOn_of_nil none, verdictOn_of_nil (same.trans none)]
  · rw [verdictOn_of_ne_nil none, verdictOn_of_ne_nil (same ▸ none), same]

/-! ## Between members -/

section Search

variable {σ : Type} [Source σ] {b : Buffered σ} {data : Bytes} {refusals started : Nat}

/-- What looking for the next member comes to. -/
inductive Found (started : Nat) (data : Bytes) (refusals : Nat) : Search × Buffered σ → Prop
  | found {b : Buffered σ} {refusals' : Nat} (some : beginning started data ≠ [])
      (fewer : refusals' ≤ refusals) (holds : b.Holds (beginning started data) refusals') :
      Found started data refusals (.found, b)
  | ended {b : Buffered σ} (none : beginning started data = []) :
      Found started data refusals (.ended, b)
  | interrupted {cause : IoError} {b : Buffered σ} {data' : Bytes} {refusals' : Nat}
      (passing : cause.Passing) (fewer : refusals' < refusals) (holds : b.Holds data' refusals')
      (same : beginning started data' = beginning started data) :
      Found started data refusals (.interrupted cause, b)
  | failed {cause : IoError} {b : Buffered σ} {data' : Bytes} {refusals' : Nat}
      (passing : cause.Passing) (fewer : refusals' < refusals) (holds : b.Holds data' refusals')
      (same : beginning started data' = beginning started data) :
      Found started data refusals (.failed cause, b)

theorem Found.mono {refusals' : Nat} {search : Search × Buffered σ}
    (found : Found started data refusals' search) (fewer : refusals' ≤ refusals) :
    Found started data refusals search := by
  cases found with
  | found some fewer' holds => exact .found some (Nat.le_trans fewer' fewer) holds
  | ended none => exact .ended none
  | interrupted passing fewer' holds same =>
    exact .interrupted passing (Nat.lt_of_lt_of_le fewer' fewer) holds same
  | failed passing fewer' holds same =>
    exact .failed passing (Nat.lt_of_lt_of_le fewer' fewer) holds same

theorem Found.congr {data' : Bytes} {search : Search × Buffered σ}
    (found : Found started data' refusals search)
    (same : beginning started data' = beginning started data) :
    Found started data refusals search := by
  cases found with
  | found some fewer holds => exact .found (same ▸ some) fewer (same ▸ holds)
  | ended none => exact .ended (same ▸ none)
  | interrupted passing fewer holds same' => exact .interrupted passing fewer holds (same'.trans same)
  | failed passing fewer holds same' => exact .failed passing fewer holds (same'.trans same)

theorem drop_length_takeWhile (keep : UInt8 → Bool) (bytes : Bytes) :
    bytes.drop (bytes.takeWhile keep).length = bytes.dropWhile keep := by
  have parts := List.prefix_iff_eq_append.1 (List.takeWhile_prefix keep (l := bytes))
  exact List.append_cancel_left (parts.trans List.takeWhile_append_dropWhile.symm)

/-- Padding ends inside a piece if there is less of it than of the piece. -/
theorem dropWhile_eq_nil_iff {keep : UInt8 → Bool} {bytes : Bytes} :
    bytes.dropWhile keep = [] ↔ ¬(bytes.takeWhile keep).length < bytes.length := by
  have parts := congrArg List.length (List.takeWhile_append_dropWhile (p := keep) (l := bytes))
  rw [List.length_append] at parts
  rw [← List.length_eq_zero_iff]
  omega

theorem found_skipPadding (holds : b.Holds data refusals) (later : started ≠ 0) :
    Found started data refusals (skipPadding b) := by
  have drops : ∀ data, beginning started data = data.dropWhile (· = 0) := fun _ => if_neg later
  fun_induction skipPadding b generalizing data refusals with
  | case1 b b' filled =>
    obtain rfl := (holds.filled filled).eq_nil
    exact .ended (drops [])
  | case2 b c bytes b' filled padding =>
    rename_i ends
    obtain ⟨later, refusals', rfl, fewer, back⟩ := (holds.filled filled).split
    have some : (c :: bytes).dropWhile (· = 0) ≠ [] := fun none => dropWhile_eq_nil_iff.1 none ends
    have dropped : ((c :: bytes) ++ later).dropWhile (· = 0) =
        (c :: bytes).dropWhile (· = 0) ++ later := by
      rw [List.dropWhile_append, if_neg (by rwa [List.isEmpty_iff])]
    refine .found ?_ fewer ?_
    · rw [drops, dropped]
      exact List.append_ne_nil_of_left_ne_nil some later
    · rw [drops, dropped, Buffered.consume, Buffered.buffer_refill filled, drop_length_takeWhile]
      exact back _
  | case3 b c bytes b' filled padding ends =>
    rename_i ih
    obtain ⟨later, refusals', rfl, fewer, back⟩ := (holds.filled filled).split
    have dropped : ((c :: bytes) ++ later).dropWhile (· = 0) = later.dropWhile (· = 0) := by
      rw [List.dropWhile_append, if_pos (List.isEmpty_iff.2 (dropWhile_eq_nil_iff.2 ends))]
    have rest : (b'.consume (c :: bytes).length).Holds later refusals' := by
      rw [Buffered.consume, Buffered.buffer_refill filled, List.drop_length]
      exact back []
    exact ((ih rest).congr (by rw [drops, drops, dropped])).mono fewer
  | case4 b cause b' filled =>
    obtain ⟨passing, refusals', fewer, holds⟩ := (holds.filled filled).refused (by simp)
    cases passing with
    | interrupted passing => exact .interrupted passing fewer holds rfl
  | case5 b cause b' filled =>
    obtain ⟨passing, refusals', fewer, holds⟩ := (holds.filled filled).refused (by simp)
    cases passing with
    | failed passing => exact .failed passing fewer holds rfl
  | case6 b b' filled =>
    obtain ⟨passing, -⟩ := (holds.filled filled).refused (by simp)
    cases passing

theorem found_findMember (holds : b.Holds data refusals) :
    Found started data refusals (findMember b started) := by
  rw [findMember]
  split
  · next first =>
    have all : ∀ data, beginning started data = data := fun _ => if_pos first
    have filled := holds.fillBuffer
    generalize b.fillBuffer = result at filled ⊢
    cases filled with
    | @some b slice refusals' nonempty buffer fewer holds =>
      have some : beginning started data ≠ [] := by
        rw [all]
        rintro rfl
        have front := holds.buffer_isPrefix
        rw [buffer, List.prefix_nil] at front
        exact nonempty front
      cases slice with
      | nil => exact absurd rfl nonempty
      | cons c bytes => exact .found some fewer (by rwa [all])
    | ended ends => exact .ended (by rwa [all])
    | interrupted kind fewer holds => exact .interrupted (.inl kind) fewer holds rfl
    | blocked kind fewer holds => exact .failed (.inr kind) fewer holds rfl
  · next later => exact found_skipPadding holds later

theorem Buffered.Holds.found {result : Search × Buffered σ} (holds : b.Holds data refusals)
    (search : findMember b started = result) : Found started data refusals result :=
  search ▸ found_findMember holds

end Search

/-! ## Requests -/

namespace Members

variable {σ : Type} [Source σ] {m : Members σ} {b : Buffered σ} {data : Bytes}
  {refusals started n : Nat}

/-- The verdict on the data that a decoder has before it. -/
def verdict (m : Members σ) (data : Bytes) : Verdict :=
  match m with
  | ⟨.between _, started, false⟩ => verdictOn started data
  | ⟨.inside stage _, started, _⟩ => (stage.prospect data).verdict started
  | ⟨_, started, _⟩ => ⟨[], none, started⟩

/-- The decoder has `data` before it, and the source refuses so many requests at most. -/
def Holds (m : Members σ) (data : Bytes) (refusals : Nat) : Prop :=
  match m.holding with
  | .between b | .inside _ b => b.Holds data refusals
  | .lost => False

/-- The end has been found. -/
def AtEnd (m : Members σ) : Prop :=
  m.finished = true ∧ ∃ b, m.holding = .between b

/-- What a request comes to where this is the verdict and the source refuses so many requests at
    most. -/
inductive Answers (v : Verdict) (refusals : Nat) : ReadResult × Members σ → Prop
  | delivered {chunk data : Bytes} {m : Members σ} {refusals' : Nat} (some : chunk ≠ [])
      (fewer : refusals' ≤ refusals) (holds : m.Holds data refusals')
      (whole : v = (m.verdict data).behind chunk) : Answers v refusals (.delivered chunk, m)
  | refused {result : ReadResult} {data : Bytes} {m : Members σ} {refusals' : Nat}
      (passing : result.Passing) (fewer : refusals' < refusals) (holds : m.Holds data refusals')
      (whole : v = m.verdict data) : Answers v refusals (result, m)
  | failed {cause : IoError} {m : Members σ} (final : ¬cause.Passing)
      (failure : v.failure = some cause) (members : m.started = v.members)
      (complete : cause ≠ corruptBody → v.payload = []) : Answers v refusals (.failed cause, m)
  | ended {m : Members σ} (atEnd : m.AtEnd) (ends : v = ⟨[], none, m.started⟩) :
      Answers v refusals (.delivered [], m)

theorem Answers.mono {v : Verdict} {refusals' : Nat} {answer : ReadResult × Members σ}
    (answers : Answers v refusals' answer) (fewer : refusals' ≤ refusals) :
    Answers v refusals answer := by
  cases answers with
  | delivered some fewer' holds whole => exact .delivered some (Nat.le_trans fewer' fewer) holds whole
  | refused passing fewer' holds whole =>
    exact .refused passing (Nat.lt_of_lt_of_le fewer' fewer) holds whole
  | failed final failure members complete => exact .failed final failure members complete
  | ended atEnd ends => exact .ended atEnd ends

/-- A request that has come to something inside a member. -/
theorem answers_of_fulfils {prospect : Prospect} {result : ReadResult} {holding : Holding σ}
    (fulfils : (Outcome.result result holding).Fulfils prospect refusals) (finished : Bool) :
    Answers (prospect.verdict started) refusals (result, ⟨holding, started, finished⟩) := by
  cases fulfils with
  | delivered some fewer holds whole =>
    exact .delivered some fewer holds (by rw [whole, Prospect.verdict_behind]; rfl)
  | refused passing fewer holds whole => exact .refused passing fewer holds (by rw [whole]; rfl)
  | failed final fate complete =>
    obtain ⟨payload, _⟩ := prospect
    dsimp only at fate
    subst fate
    exact .failed final rfl rfl complete

theorem answers_readNext (holds : b.Holds data refusals) (pos : 0 < n) :
    Answers (verdictOn started data) refusals (readNext b started n) := by
  fun_induction readNext b started n generalizing data refusals with
  | case1 b started b' search result holding opened =>
    cases holds.found search with
    | found some fewer holds =>
      rw [verdictOn_of_ne_nil some]
      exact (answers_of_fulfils (holds.opened opened pos) false).mono fewer
  -- an empty member, or one of which everything has been delivered: the request goes on behind it
  | case2 b started b' search b'' opened ih =>
    cases holds.found search with
    | found some fewer holds =>
      cases holds.opened opened pos with
      | ended fewer' holds ends =>
        rw [verdictOn_of_ne_nil some, ends]
        exact (ih holds).mono (Nat.le_trans fewer' fewer)
  | case3 b started b' search opened =>
    cases holds.found search with
    | found some fewer holds =>
      cases holds.opened opened pos
  | case4 b started b' search =>
    cases holds.found search with
    | ended none => exact .ended ⟨rfl, b', rfl⟩ (verdictOn_of_nil none)
  | case5 b started cause b' search =>
    cases holds.found search with
    | interrupted passing fewer holds same =>
      exact .refused (.interrupted passing) fewer holds (verdictOn_congr same).symm
  | case6 b started cause b' search =>
    cases holds.found search with
    | failed passing fewer holds same =>
      exact .refused (.failed passing) fewer holds (verdictOn_congr same).symm
  | case7 b started b' search =>
    have found : Found started data refusals (findMember b started) := found_findMember holds
    rw [search] at found
    cases found

/-- A request for something. -/
theorem Holds.read (holds : m.Holds data refusals) (pos : 0 < n) :
    Answers (m.verdict data) refusals (Source.read m n) := by
  show Answers (m.verdict data) refusals (m.read n)
  obtain ⟨holding, started, finished⟩ := m
  unfold Members.read
  rw [if_neg (Nat.ne_of_gt pos)]
  cases holding with
  | between b =>
    cases finished with
    | true => exact .ended ⟨rfl, b, rfl⟩ rfl
    | false => exact answers_readNext holds pos
  | lost => exact holds.elim
  | inside stage b =>
    have fulfils := fulfils_readInside holds stage pos
    dsimp only
    generalize readInside stage b n = outcome at fulfils ⊢
    cases outcome with
    | result result holding => exact answers_of_fulfils fulfils finished
    | ended b' =>
      cases fulfils with
      | @ended _ rest refusals' fewer holds ends =>
        have whole : (stage.prospect data).verdict started =
            verdictOn started rest := by
          rw [ends]
          rfl
        rw [verdict, whole]
        exact (answers_readNext holds pos).mono fewer
    | lostSource => cases fulfils

theorem Holds.answered {answer : ReadResult × Members σ} (holds : m.Holds data refusals)
    (answered : Source.read m n = answer) (pos : 0 < n) :
    Answers (m.verdict data) refusals answer := answered ▸ holds.read pos

/-- At the end every request finds the end again. -/
theorem AtEnd.read (atEnd : m.AtEnd) (n : Nat) : Source.read m n = (.delivered [], m) := by
  obtain ⟨holding, started, finished⟩ := m
  obtain ⟨ended, b, between⟩ := atEnd
  dsimp only at ended between
  subst ended between
  show Members.read ⟨.between b, started, true⟩ n = _
  rw [Members.read]
  exact ite_self _

/-! ## From the beginning to the end -/

/-- A decoder in front of a source, with a buffer that has room. -/
theorem holds_new {s : σ} (serves : Source.Serves s data refusals) {capacity : Nat}
    (room : 0 < capacity) : (new ⟨s, capacity, []⟩).Holds data refusals :=
  ⟨data, rfl, serves, .inl room⟩

/-- A decoder in front of a byte string. -/
theorem holds_newInMemory (capacity : Nat) (data : Bytes) :
    (new (σ := NoSource) ⟨.mk, capacity, data⟩).Holds data 0 :=
  ⟨[], (List.append_nil data).symm, NoSource.serves .mk, .inr rfl⟩

/-- Reading to the end where nothing is refused. -/
theorem Holds.readToEnd (holds : m.Holds data 0) (pos : 0 < n) (before : Array UInt8) :
    ∃ (payload : Bytes) (last : Members σ), Source.readToEnd m n before =
        (before ++ payload, (m.verdict data).ending, last) ∧
      last.started = (m.verdict data).members ∧
      ((m.verdict data).failure = none → payload = (m.verdict data).payload) := by
  fun_induction Source.readToEnd m n before generalizing data with
  | case1 m before m' answer =>
    cases holds.answered answer pos with
    | delivered some => exact absurd rfl some
    | refused passing => cases passing
    | ended atEnd ends =>
      refine ⟨[], m', ?_, by rw [ends], fun _ => by rw [ends]⟩
      rw [ends, Array.appendList_nil]
      rfl
  | case2 m before c bytes m' answer ih =>
    cases holds.answered answer pos with
    | refused passing => cases passing
    | delivered some fewer holds whole =>
      obtain ⟨payload, last, result, members, complete⟩ := ih (Nat.le_zero.1 fewer ▸ holds)
      refine ⟨(c :: bytes) ++ payload, last, ?_, ?_, ?_⟩
      · have joined : before ++ (c :: bytes) ++ payload = before ++ ((c :: bytes) ++ payload) :=
          Array.toList_inj.1 (by simp)
        rw [result, whole, joined]
        rfl
      · rw [whole]
        exact members
      · intro none
        rw [whole] at none ⊢
        rw [Verdict.behind, complete none]
  | case3 m before cause m' answer =>
    cases holds.answered answer pos with
    | refused passing fewer => exact absurd fewer (Nat.not_lt_zero _)
  | case4 m before cause m' answer =>
    cases holds.answered answer pos with
    | refused passing fewer => exact absurd fewer (Nat.not_lt_zero _)
    | failed final failure members complete =>
      refine ⟨[], m', ?_, members, ?_⟩
      · rw [Verdict.ending, failure, Array.appendList_nil]
      · intro none
        rw [none] at failure
        cases failure
  | case5 m before m' answer =>
    cases holds.answered answer pos with
    | refused passing fewer => exact absurd fewer (Nat.not_lt_zero _)

end Members

/-- Decompressing a byte string passes the verdict on it on. -/
theorem decompress_eq (data : Bytes) :
    decompress data =
      match (verdictOn 0 data).failure with
      | none => .ok (verdictOn 0 data).payload
      | some cause => .error (.ofDecoder cause) := by
  obtain ⟨payload, last, result, -, complete⟩ :=
    (Members.holds_newInMemory 0 data).readToEnd (show 0 < 65536 by decide) #[]
  have same : (Members.new (σ := NoSource) ⟨.mk, 0, data⟩).verdict data = verdictOn 0 data := rfl
  rw [same] at result complete
  rw [decompress, result, Verdict.ending]
  cases failure : (verdictOn 0 data).failure with
  | none => simp [complete failure]
  | some cause => rfl

/-! ## Written streams -/

/-- A member that has been written is over behind its payload. -/
theorem IsMember.prospect {member payload : Bytes} (isMember : IsMember member payload)
    (behind : Bytes) :
    Prospect.ofHeader MemberHeader.read (member ++ behind) = ⟨payload, .ended behind⟩ := by
  obtain ⟨mark, blocks, inflates, rfl⟩ := isMember
  obtain ⟨room, final, result, whole⟩ := completes_start inflates behind
  refine Prospect.ofHeader_eq_ended_iff.2 ⟨Frame.headerWithMark mark, _, _, _, ?_,
    reads_headerWithMark mark,
    Deflate.Inflater.drain_of_run result (by decide), whole, reads_trailer _ _⟩
  rw [Frame.memberEnd]
  simp only [List.append_assoc, List.nil_append]

/-- The verdict on members that have been written one behind the other. -/
theorem IsStream.verdict {data : Bytes} {payloads : List Bytes} (stream : IsStream data payloads)
    (started : Nat) :
    verdictOn started data = ⟨payloads.flatten, none, started + payloads.length⟩ := by
  induction stream generalizing started with
  | nil => exact verdictOn_of_nil (beginning_nil started)
  | @cons member payload stream payloads first rest ih =>
    obtain ⟨more, begins⟩ := first.exists_cons
    have starts : member ++ stream = 0x1f :: (more ++ stream) := by rw [begins, List.cons_append]
    have counts : started + 1 + payloads.length = started + (payload :: payloads).length := by
      rw [List.length_cons]
      omega
    rw [verdictOn_of_cons starts, first.prospect, Prospect.verdict, ih,
      Verdict.behind, counts, List.flatten_cons]

end ParallelGzip
