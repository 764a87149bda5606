import ParallelGzip.Proofs.Language
import ParallelGzip.Proofs.Tells

set_option autoImplicit false

/-! # Truncation: a stream that is cut off inside a member

A parser that reads just a field is short of something on every part of it that is not the whole, an
inflater is hungry on every part of a compressed stream, and so the front of a member is a member
that fails because its data ends too early, wherever it has been cut (`IsGzipMember.prospect_front`).
The members before it are whole. Behind them a decoder therefore delivers some of the payload of the
member that has been cut, and then has to tell that the data ended early. -/

namespace ParallelGzip

open Deflate (Inflater)

variable {front back payload : Bytes}

/-! ## Parts of a member -/

/-- A cut is inside the first part, or behind it. -/
theorem exists_of_append_eq_append {α : Type} {front back first second : List α}
    (same : front ++ back = first ++ second) :
    (∃ more, more ≠ [] ∧ first = front ++ more) ∨
      ∃ rest, front = first ++ rest ∧ second = rest ++ back := by
  obtain ⟨more, split, behind⟩ | ⟨rest, split, behind⟩ := List.append_eq_append_iff.1 same
  · by_cases none : more = []
    · subst none
      exact .inr ⟨[], by rw [split, List.append_nil, List.append_nil], behind.symm⟩
    · exact .inl ⟨more, none, split⟩
  · exact .inr ⟨rest, split, behind⟩

/-- A parser is not done before it has read all of what it reads. -/
theorem Parser.Reads.reading_front {τ ε α : Type} {p : Parser τ ε α} {front back : List τ} {value : α}
    (reads : p.Reads (front ++ back) value) (missing : back ≠ []) : p.reading front = .short := by
  induction front generalizing p with
  | nil =>
    cases reads with
    | done => exact absurd rfl missing
    | need rest => rfl
  | cons symbol front ih =>
    cases reads with
    | need rest => exact ih rest

/-- An inflater is hungry as long as some of a compressed stream is missing, and has put out some of
    its content. -/
theorem Deflate.IsDeflated.drain_front {content : Bytes}
    (isDeflated : Deflate.IsDeflated (front ++ back) content) (missing : back ≠ []) :
    ∃ z rest, (Inflater.start #[]).drain front = (.hungry, z, rest) ∧
      z.history.toList <+: content := by
  have whole := isDeflated.drain []
  rw [List.append_nil, Inflater.drain_append] at whole
  rcases result : (Inflater.start #[]).drain front with ⟨stop, z, rest⟩
  rw [result] at whole
  cases stop with
  | hungry =>
    have later : z.drain back = (.finished, ⟨.finished, [], content.toArray⟩, []) := whole
    have appended : z.history.toList <+: (z.drain back).2.1.history.toList :=
      Inflater.history_isPrefix _ _ _ _ _
    rw [later] at appended
    exact ⟨z, rest, rfl, appended⟩
  -- nothing can be left over of the whole
  | finished =>
    have none : rest ++ back = [] := congrArg (·.2.2) whole
    exact absurd (List.append_eq_nil_iff.1 none).2 missing
  | corrupt | full => cases congrArg Prod.fst whole

/-- A member ends too early. -/
inductive IoError.EndsEarly : IoError → Prop
  | inBody : EndsEarly endedInBody
  | inFrame : EndsEarly endedInFrame

theorem IoError.EndsEarly.ne_corruptBody {cause : IoError} (early : cause.EndsEarly) :
    cause ≠ corruptBody := by
  cases early <;> decide

/-- Data that ends too early is reported as such. -/
theorem IoError.EndsEarly.ofDecoder {cause : IoError} (early : cause.EndsEarly) :
    Error.ofDecoder cause = .unexpectedEof cause.message := by
  cases early <;> rfl

/-- A member of which something is missing at the end fails because it ends too early, with some of
    its payload before that. -/
theorem IsGzipMember.prospect_front (isMember : IsGzipMember (front ++ back) payload)
    (missing : back ≠ []) :
    ∃ delivered cause, Prospect.ofHeader MemberHeader.read front = ⟨delivered, .failed cause⟩ ∧
      delivered <+: payload ∧ cause.EndsEarly := by
  obtain ⟨header, body, isHeader, isDeflated, split⟩ := isMember
  have reads := MemberHeader.reads_iff.2 isHeader
  rw [List.append_assoc] at split
  obtain ⟨more, some, rfl⟩ | ⟨rest, rfl, behind⟩ := exists_of_append_eq_append split
  -- in the header
  · refine ⟨[], endedInFrame, ?_, List.nil_prefix, .inFrame⟩
    rw [Prospect.ofHeader, reads.reading_front some]
  · obtain ⟨more, some, rfl⟩ | ⟨rest, rfl, trailer⟩ := exists_of_append_eq_append behind.symm
    -- in the compressed stream
    · obtain ⟨z, rest', hungry, front⟩ := isDeflated.drain_front some
      refine ⟨z.history.toList, endedInBody, ?_, front, .inBody⟩
      rw [Prospect.ofHeader, Parser.reading_eq_done_iff.2 ⟨header, rfl, reads⟩]
      dsimp only
      rw [Prospect.ofBody, hungry]
      rfl
    -- in the trailer
    · refine ⟨payload, endedInFrame, ?_, List.prefix_refl payload, .inFrame⟩
      have whole := MemberTrailer.reads_iff.2 trailer.symm
      rw [Prospect.ofHeader_of_isDeflated isHeader isDeflated, Fate.ofTrailer,
        whole.reading_front missing]

/-! ## Streams -/

section Streams

variable {before : List PaddedMember} {part : PaddedMember} {n : Nat}

/-- The verdict on a stream that is cut off inside a member: the payload of the members before it,
    some of its own, and that the data ends too early. -/
theorem verdictOn_truncated (before : List PaddedMember)
    (cut : part.member = front ++ back) (begun : front ≠ [])
    (missing : back ≠ []) :
    ∃ delivered cause, delivered <+: part.payload ∧ cause.EndsEarly ∧
      verdictOn 0 (before.flatMap PaddedMember.bytes ++ front) =
        ⟨before.flatMap PaddedMember.payload ++ delivered, some cause, before.length + 1⟩ := by
  have isMember := part.isMember
  obtain ⟨rest, begins⟩ := isMember.exists_cons
  rw [cut] at isMember begins
  obtain ⟨delivered, cause, fails, some_payload, early⟩ := isMember.prospect_front missing
  refine ⟨delivered, cause, some_payload, early, ?_⟩
  cases front with
  | nil => exact absurd rfl begun
  | cons c front =>
    obtain rfl : c = 0x1f := (List.cons.inj begins).1
    rw [verdictOn_flatMap, verdictOn_of_cons rfl, fails, Nat.zero_add]
    rfl

/-- A cut inside a member leaves the members before it and a part of that member. -/
theorem take_flatMap (behind : List PaddedMember)
    (first : (before.flatMap PaddedMember.bytes).length < n)
    (last : n < (before.flatMap PaddedMember.bytes).length + part.member.length) :
    ∃ front back, part.member = front ++ back ∧ front ≠ [] ∧ back ≠ [] ∧
      ((before ++ part :: behind).flatMap PaddedMember.bytes).take n =
        before.flatMap PaddedMember.bytes ++ front := by
  obtain ⟨k, rfl⟩ := Nat.exists_eq_add_of_le (Nat.le_of_lt first)
  refine ⟨part.member.take k, part.member.drop k, (List.take_append_drop k _).symm, ?_, ?_, ?_⟩
  · rw [Ne, List.take_eq_nil_iff, ← List.length_eq_zero_iff]
    omega
  · rw [Ne, List.drop_eq_nil_iff]
    omega
  · rw [List.flatMap_append, List.flatMap_cons, PaddedMember.bytes, List.append_assoc,
      List.take_length_add_append, List.take_append_of_le_length (by omega)]

end Streams

/-! ## Readers -/

theorem Transcript.handed_append (first second : Transcript) :
    Transcript.handed (first ++ second) = first.handed ++ second.handed := List.flatMap_append

/-- Behind a request by which everything has been handed over, nothing is left for any other. -/
theorem Transcript.Sound.nothing_left {bytes : Bytes} {failure? : Option Error}
    {before after : Transcript} {q q' : ReadRequest} {answer answer' : Except Error Bytes}
    (sound : Transcript.Sound bytes failure? (before ++ (q, answer) :: after))
    (all : Transcript.handed before = bytes) (asked : (q', answer') ∈ after) :
    q'.Fits [] failure? answer' := by
  obtain ⟨between, after', rfl⟩ := List.append_of_mem asked
  obtain ⟨left, ahead, fits⟩ := sound.fits (before ++ (q, answer) :: between) q' answer' after'
    (by rw [List.append_assoc, List.cons_append])
  have none : left = [] := by
    rw [← all, Transcript.handed_append, List.append_assoc] at ahead
    exact (List.append_eq_nil_iff.1 (List.self_eq_append_right.1 ahead)).2
  exact none ▸ fits

/-- Reads are answered with some bytes as long as there are any, and then each time with the failure
    behind them. -/
theorem Transcript.Sound.answers {bytes : Bytes} {failure : Error} {before after : Transcript}
    {answer : Except Error Bytes} {k : Nat}
    (sound : Transcript.Sound bytes (some failure) (before ++ (.read k, answer) :: after))
    (pos : 0 < k) :
    (∃ chunk, answer = .ok chunk ∧ chunk ≠ [] ∧ Transcript.handed before ++ chunk <+: bytes) ∨
      (answer = .error failure ∧ Transcript.handed before = bytes ∧
        ∀ k' answer', (.read k', answer') ∈ after → 0 < k' → answer' = .error failure) := by
  obtain ⟨left, ahead, fits⟩ := sound.fits before _ _ after rfl
  rw [ReadRequest.Fits, if_neg (Nat.ne_of_gt pos), Delivers] at fits
  split at fits
  · next none =>
    subst none fits
    rw [List.append_nil] at ahead
    refine .inr ⟨rfl, ahead.symm, ?_⟩
    intro k' answer' later pos'
    have fits := sound.nothing_left ahead.symm later
    rw [ReadRequest.Fits, if_neg (Nat.ne_of_gt pos'), Delivers, if_pos rfl] at fits
    exact fits
  · obtain ⟨chunk, told, some, front, -⟩ := fits
    rw [ahead]
    exact .inl ⟨chunk, told, some, (List.prefix_append_right_inj _).2 front⟩

/-- A stream that is cut off inside a member, behind the first byte of it and before the last, is
    never taken for a whole one, nor for a damaged one. -/
theorem truncation_detected {before behind : List PaddedMember} {part : PaddedMember}
    {data payload : Bytes} {n : Nat} (accepted : decompress data = .ok payload)
    (split : data = (before ++ part :: behind).flatMap PaddedMember.bytes)
    (first : (before.flatMap PaddedMember.bytes).length < n)
    (last : n < (before.flatMap PaddedMember.bytes).length + part.member.length) :
    ∃ delivered reason, decompress (data.take n) = .error (.unexpectedEof reason) ∧
      before.flatMap PaddedMember.payload <+: delivered ∧ delivered <+: payload ∧
      ∀ {σ : Type} [Source σ] {source : σ} {refusals : Nat} {options : ReaderOptions}
        {r : Reader σ} {s : Session σ}, Source.Serves source (data.take n) refusals →
        Source.Unfailing source → Reader.open source options = .done r →
        Relation.ReflTransGen Session.Step (Session.start r) s →
        s.Returns ∧ Transcript.handed s.answered <+: delivered ∧
        Transcript.Sound delivered (some (.unexpectedEof reason)) s.answered ∧
        ∀ answered k answer later, s.answered = answered ++ (.read k, answer) :: later → 0 < k →
          (∃ chunk, answer = .ok chunk ∧ chunk ≠ []) ∨
            (answer = .error (.unexpectedEof reason) ∧ Transcript.handed answered = delivered ∧
              ∀ k' answer', (.read k', answer') ∈ later → 0 < k' →
                answer' = .error (.unexpectedEof reason)) := by
  obtain ⟨front, back, cut, begun, missing, truncated⟩ := take_flatMap behind first last
  obtain ⟨own, cause, own_front, early, verdict⟩ :=
    verdictOn_truncated before cut begun missing
  rw [← truncated, ← split] at verdict
  have whole : payload = (before ++ part :: behind).flatMap PaddedMember.payload := by
    rw [decompress_eq, verdictOn_of_parts split] at accepted
    exact (Except.ok.inj accepted).symm
  refine ⟨before.flatMap PaddedMember.payload ++ own, cause.message, ?_, List.prefix_append _ _, ?_,
    ?_⟩
  · rw [decompress_eq, verdict]
    exact congrArg Except.error early.ofDecoder
  · rw [whole, List.flatMap_append, List.flatMap_cons, List.prefix_append_right_inj]
    exact own_front.trans (List.prefix_append _ _)
  · intro σ _ source refusals options r s serves unfailing opened reached
    obtain ⟨bytes, -, complete, follows⟩ := Reader.follows_of_open serves unfailing opened
    have follows := follows s reached
    rw [verdict] at complete follows
    obtain rfl := complete fun same => early.ne_corruptBody (Option.some.inj same)
    rw [Option.map_some, early.ofDecoder] at follows
    refine ⟨follows.returns, ⟨_, follows.ahead⟩, follows.sound, ?_⟩
    intro answered k answer later same pos
    have sound := follows.sound
    rw [same] at sound
    rcases sound.answers pos with ⟨chunk, told, some, -⟩ | told
    · exact .inl ⟨chunk, told, some⟩
    · exact .inr told

/-- A member that stores its payload. -/
def PaddedMember.stored (payload : Bytes) (padding : Nat) : PaddedMember where
  member := Frame.header 6 ++
    (Deflate.store payload ++ Frame.memberEnd (crc32 payload 0) payload.length none)
  payload := payload
  isMember := IsMember.isGzipMember (isMember_of_header (Deflate.inflates_store payload #[]) 6)
  padding := padding

/-- Two padded members, of which the second is cut off in its payload. The source is interrupted and
    then serves a single byte; one read has been answered. -/
theorem truncation_detected_second_member :
    let before := [PaddedMember.stored [97] 2]
    let part := PaddedMember.stored [98, 99] 1
    let data := (before ++ [part]).flatMap PaddedMember.bytes
    let n := (before.flatMap PaddedMember.bytes).length + 16
    let source : Scheduled := ⟨data.take n, [.interrupted, .serve 0]⟩
    let r := Reader.new source 65536 2
    let s : Session Scheduled :=
      ⟨(Session.call r (.read 8)).2, none, [(.read 8, (Session.call r (.read 8)).1)]⟩
    decompress data = .ok [97, 98, 99] ∧
      (before.flatMap PaddedMember.bytes).length < n ∧
      n < (before.flatMap PaddedMember.bytes).length + part.member.length ∧
      Source.Serves source (data.take n) 2 ∧ Source.Unfailing source ∧
      Reader.open source { blockSize := 65536, queueSize := 2 } = .done r ∧
      Relation.ReflTransGen Session.Step (Session.start r) s ∧
      ∃ delivered reason, decompress (data.take n) = .error (.unexpectedEof reason) ∧
        [97] <+: delivered ∧ delivered <+: [97, 98, 99] ∧
        s.Returns ∧ Transcript.handed s.answered <+: delivered ∧
        Transcript.Sound delivered (some (.unexpectedEof reason)) s.answered ∧
        ∀ answered k answer later, s.answered = answered ++ (.read k, answer) :: later → 0 < k →
          (∃ chunk, answer = .ok chunk ∧ chunk ≠ []) ∨
            (answer = .error (.unexpectedEof reason) ∧ Transcript.handed answered = delivered ∧
              ∀ k' answer', (.read k', answer') ∈ later → 0 < k' →
                answer' = .error (.unexpectedEof reason)) := by
  intro before part data n source r s
  have accepted : decompress data = .ok [97, 98, 99] :=
    decompress_eq_ok_iff.2 ⟨before ++ [part], rfl, rfl⟩
  have first : (before.flatMap PaddedMember.bytes).length < n := Nat.lt_add_of_pos_right (by decide)
  have last : n < (before.flatMap PaddedMember.bytes).length + part.member.length :=
    Nat.add_lt_add_left (by decide +kernel) _
  have unfailing : Source.Unfailing source := Scheduled.unfailing (by simp [source])
  have opened : Reader.open source { blockSize := 65536, queueSize := 2 } = .done r := rfl
  have reached : Relation.ReflTransGen Session.Step (Session.start r) s :=
    Session.reaches_call ⟨rfl, rfl, rfl, .inr rfl, .inr ⟨_, rfl, fun _ => rfl⟩⟩ (by decide) [] _
  obtain ⟨delivered, reason, fails, whole, front, reads⟩ :=
    truncation_detected accepted (rfl : data = (before ++ part :: []).flatMap PaddedMember.bytes)
      first last
  exact ⟨accepted, first, last, source.serves, unfailing, opened, reached, delivered, reason, fails,
    whole, front, reads source.serves unfailing opened reached⟩

end ParallelGzip
