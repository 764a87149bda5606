import ParallelGzip.Proofs.Member.Grammar
import ParallelGzip.Proofs.Verdict

set_option autoImplicit false

/-! # The language of decompression

Decompression accepts padded members, one behind the other, and nothing else. Members and padding
can be told apart in one way only: a member ends where its trailer does, and the next one begins with
a byte that is not padding. `verdictOn_flatMap` goes from padded members to what a decoder makes of
them, `exists_parts_of_verdictOn` the other way. -/

namespace ParallelGzip

/-! ## Padded members -/

/-- A member that has been written is one that the format knows. -/
theorem IsMember.isGzipMember {member payload : Bytes} (isMember : IsMember member payload) :
    IsGzipMember member payload := by
  obtain ⟨member', split, isGzipMember⟩ := Prospect.ended_iff_isGzipMember.1 (isMember.prospect [])
  rwa [List.append_cancel_right split]

/-- A member of a stream, and so many NUL bytes behind it. -/
@[ext]
structure PaddedMember where
  member : Bytes
  payload : Bytes
  isMember : IsGzipMember member payload
  padding : Nat

namespace PaddedMember

/-- The bytes of a member and of its padding. -/
def bytes (part : PaddedMember) : Bytes := part.member ++ List.replicate part.padding 0

variable {part part' : PaddedMember} {parts parts' : List PaddedMember}

theorem exists_cons (part : PaddedMember) : ∃ rest, part.bytes = 0x1f :: rest := by
  obtain ⟨rest, begins⟩ := part.isMember.exists_cons
  exact ⟨rest ++ List.replicate part.padding 0, by rw [bytes, begins, List.cons_append]⟩

/-- The parts begin with a member, if there are any. -/
theorem dropWhile_flatMap (parts : List PaddedMember) :
    (parts.flatMap bytes).dropWhile (· = 0) = parts.flatMap bytes := by
  cases parts with
  | nil => rfl
  | cons part parts =>
    obtain ⟨rest, begins⟩ := part.exists_cons
    rw [List.flatMap_cons, begins]
    rfl

theorem dropWhile_padding (padding : Nat) (bytes : Bytes) :
    (List.replicate padding 0 ++ bytes).dropWhile (· = 0) = bytes.dropWhile (· = 0) := by
  induction padding with
  | zero => rfl
  | succ padding ih => exact ih

/-- What is to be expected of the first member. -/
theorem prospect (part : PaddedMember) (behind : Bytes) :
    Prospect.ofHeader MemberHeader.read (part.bytes ++ behind) =
      ⟨part.payload, .ended (List.replicate part.padding 0 ++ behind)⟩ :=
  Prospect.ended_iff_isGzipMember.2
    ⟨part.member, by rw [bytes, List.append_assoc], part.isMember⟩

theorem eq_nil_of_flatMap_bytes (none : parts.flatMap bytes = []) : parts = [] := by
  cases parts with
  | nil => rfl
  | cons part parts =>
    obtain ⟨rest, begins⟩ := part.exists_cons
    rw [List.flatMap_cons, begins] at none
    cases none

/-- There is only one way to cut data into padded members. -/
theorem flatMap_bytes_injective (same : parts.flatMap bytes = parts'.flatMap bytes) :
    parts = parts' := by
  induction parts generalizing parts' with
  | nil => exact (eq_nil_of_flatMap_bytes same.symm).symm
  | cons part parts ih =>
    cases parts' with
    | nil => exact eq_nil_of_flatMap_bytes same
    | cons part' parts' =>
      rw [List.flatMap_cons, List.flatMap_cons] at same
      -- the decoder knows where the first member ends
      have first := part.prospect (parts.flatMap bytes)
      rw [same, part'.prospect] at first
      obtain ⟨payloads, fates⟩ := Prospect.mk.inj first
      have rests := Fate.ended.inj fates
      have later := congrArg (List.dropWhile (· = 0)) rests
      rw [dropWhile_padding, dropWhile_padding, dropWhile_flatMap, dropWhile_flatMap] at later
      obtain rfl := ih later.symm
      have paddings := congrArg List.length (List.append_cancel_right rests)
      rw [List.length_replicate, List.length_replicate] at paddings
      have members := List.append_cancel_right same
      rw [bytes, bytes, paddings] at members
      rw [PaddedMember.ext (List.append_cancel_right members) payloads.symm paddings.symm]

end PaddedMember

/-! ## The verdict -/

section Verdict

variable {parts : List PaddedMember} {data rest : Bytes} {started : Nat}

/-- Padding after a member is passed over. -/
theorem beginning_padding (padding : Nat) (data : Bytes) :
    beginning (started + 1) (List.replicate padding 0 ++ data) = beginning (started + 1) data :=
  PaddedMember.dropWhile_padding padding data

/-- The verdict behind padded members. -/
theorem verdictOn_flatMap (parts : List PaddedMember) (started : Nat) (rest : Bytes) :
    verdictOn started (parts.flatMap PaddedMember.bytes ++ rest) =
      (verdictOn (started + parts.length) rest).behind (parts.flatMap PaddedMember.payload) := by
  induction parts generalizing started with
  | nil => rfl
  | cons part parts ih =>
    obtain ⟨more, begins⟩ := part.exists_cons
    have starts : part.bytes ++ (parts.flatMap PaddedMember.bytes ++ rest) =
        0x1f :: (more ++ (parts.flatMap PaddedMember.bytes ++ rest)) := by
      rw [begins, List.cons_append]
    have counts : started + 1 + parts.length = started + (part :: parts).length := by
      rw [List.length_cons]
      omega
    rw [List.flatMap_cons, List.flatMap_cons, List.append_assoc, verdictOn_of_cons starts,
      part.prospect, Prospect.verdict, verdictOn_congr (beginning_padding _ _), ih,
      Verdict.behind_behind, counts]

/-- Where nothing fails there are padded members. -/
theorem exists_parts_of_verdictOn (accepts : (verdictOn started data).failure = none) :
    ∃ parts : List PaddedMember, beginning started data = parts.flatMap PaddedMember.bytes := by
  fun_induction verdictOn started data with
  | case1 started data none => exact ⟨[], none⟩
  | case2 started data some payload cause failed => cases accepts
  | case3 started data some payload rest ends ih =>
    obtain ⟨parts, later⟩ := ih accepts
    obtain ⟨member, split, isMember⟩ := Prospect.ended_iff_isGzipMember.1 ends
    have padding : rest.takeWhile (· = 0) = List.replicate (rest.takeWhile (· = 0)).length 0 :=
      List.eq_replicate_iff.2
        ⟨rfl, fun b hb => of_decide_eq_true (List.all_eq_true.1 List.all_takeWhile b hb)⟩
    have cut : rest = List.replicate (rest.takeWhile (· = 0)).length 0 ++
        parts.flatMap PaddedMember.bytes := by
      rw [← later, ← padding]
      exact List.takeWhile_append_dropWhile.symm
    refine ⟨⟨member, payload, isMember, (rest.takeWhile (· = 0)).length⟩ :: parts, ?_⟩
    rw [List.flatMap_cons, PaddedMember.bytes, List.append_assoc, ← cut, split]

/-- Nothing but the right trailer is accepted behind a header and a compressed stream. -/
theorem verdictOn_failure_ne_none {header body payload : Bytes}
    (isHeader : MemberHeader.IsHeader header) (isDeflated : Deflate.IsDeflated body payload)
    (wrong : ¬Frame.trailer (crc32 payload 0) payload.length <+: rest) :
    (verdictOn started (header ++ (body ++ rest))).failure ≠ none := by
  obtain ⟨more, begins⟩ := isHeader.exists_cons
  have starts : header ++ (body ++ rest) = 0x1f :: (more ++ (body ++ rest)) := by
    rw [begins, List.cons_append]
  rw [verdictOn_of_cons starts, Prospect.ofHeader_of_isDeflated isHeader isDeflated]
  cases fate : Fate.ofTrailer (MemberTrailer.read (crc32 payload 0) payload.length) rest with
  | ended behind =>
    obtain ⟨trailer, rfl, reads⟩ := Fate.ofTrailer_eq_ended_iff.1 fate
    exact absurd ⟨behind, by rw [MemberTrailer.reads_iff.1 reads]⟩ wrong
  | failed cause => exact Option.some_ne_none cause

end Verdict

/-! ## Decompression -/

section Decompression

variable {data out : Bytes}

/-- Padded members are decompressed to their payloads. -/
theorem verdictOn_of_parts {parts : List PaddedMember}
    (split : data = parts.flatMap PaddedMember.bytes) :
    verdictOn 0 data = ⟨parts.flatMap PaddedMember.payload, none, parts.length⟩ := by
  have whole := verdictOn_flatMap parts 0 []
  rw [List.append_nil, verdictOn_of_nil (beginning_nil _), Verdict.behind, List.append_nil,
    Nat.zero_add] at whole
  rw [split, whole]

theorem decompress_eq_ok_iff :
    decompress data = .ok out ↔ ∃ parts : List PaddedMember,
      data = parts.flatMap PaddedMember.bytes ∧ out = parts.flatMap PaddedMember.payload := by
  constructor
  · intro accepts
    rw [decompress_eq] at accepts
    cases failure : (verdictOn 0 data).failure with
    | none =>
      obtain ⟨parts, split⟩ := exists_parts_of_verdictOn failure
      have split : data = parts.flatMap PaddedMember.bytes := split
      rw [failure, verdictOn_of_parts split] at accepts
      exact ⟨parts, split, (Except.ok.inj accepts).symm⟩
    | some cause =>
      rw [failure] at accepts
      cases accepts
  · rintro ⟨parts, split, rfl⟩
    rw [decompress_eq, verdictOn_of_parts split]

theorem exists_decompress_eq_error (fails : (verdictOn 0 data).failure ≠ none) :
    ∃ failure, decompress data = .error failure := by
  obtain ⟨cause, failure⟩ := Option.ne_none_iff_exists'.1 fails
  exact ⟨.ofDecoder cause, by rw [decompress_eq, failure]⟩

/-- Reading on to the end of padded members. -/
theorem exists_readToEnd_of_parts {parts : List PaddedMember}
    (split : data = parts.flatMap PaddedMember.bytes) (capacity : Nat) {n : Nat} (pos : 0 < n) :
    ∃ last, Source.readToEnd (Members.new (σ := NoSource) ⟨.mk, capacity, data⟩) n #[] =
        ((parts.flatMap PaddedMember.payload).toArray, .ended, last) ∧
      last.started = parts.length := by
  obtain ⟨payload, last, result, members, complete⟩ :=
    (Members.holds_newInMemory capacity data).readToEnd pos #[]
  have verdict : (Members.new (σ := NoSource) ⟨.mk, capacity, data⟩).verdict data =
      ⟨parts.flatMap PaddedMember.payload, none, parts.length⟩ := verdictOn_of_parts split
  rw [verdict] at result members complete
  have joined : (#[] : Array UInt8) ++ payload = payload.toArray := Array.toList_inj.1 (by simp)
  refine ⟨last, ?_, members⟩
  rw [result, joined, complete rfl]
  rfl

/-- Decompression accepts the empty byte string, which comes to nothing, and members with any number
    of NUL bytes behind each of them, which come to their payloads, and nothing else. There is only
    one way to cut data into padded members, and a decoder that has come to the end has opened just
    these. So it is an error if there are NUL bytes in front of the first member, or something behind
    one that is not padding and no member, or if anything but the right trailer is behind the
    compressed stream of a member. -/
theorem decompress_language (data : Bytes) :
    (∀ out, decompress data = .ok out ↔
      (data = [] ∧ out = []) ∨ ∃ parts : List PaddedMember, parts ≠ [] ∧
        data = parts.flatMap PaddedMember.bytes ∧ out = parts.flatMap PaddedMember.payload) ∧
    (∀ parts : List PaddedMember, data = parts.flatMap PaddedMember.bytes →
      (∀ parts' : List PaddedMember, data = parts'.flatMap PaddedMember.bytes → parts' = parts) ∧
      ∀ capacity n, 0 < n → ∃ last,
        Source.readToEnd (Members.new (σ := NoSource) ⟨.mk, capacity, data⟩) n #[] =
          ((parts.flatMap PaddedMember.payload).toArray, .ended, last) ∧
        last.started = parts.length) ∧
    (∀ rest, data = 0 :: rest → ∃ failure, decompress data = .error failure) ∧
    (∀ (parts : List PaddedMember) (rest : Bytes), parts ≠ [] →
      data = parts.flatMap PaddedMember.bytes ++ rest → rest.dropWhile (· = 0) ≠ [] →
      (∀ member payload, IsGzipMember member payload → ¬member <+: rest.dropWhile (· = 0)) →
      ∃ failure, decompress data = .error failure) ∧
    (∀ (parts : List PaddedMember) (header body payload rest : Bytes),
      data = parts.flatMap PaddedMember.bytes ++ (header ++ (body ++ rest)) →
      MemberHeader.IsHeader header → Deflate.IsDeflated body payload →
      ¬Frame.trailer (crc32 payload 0) payload.length <+: rest →
      ∃ failure, decompress data = .error failure) := by
  refine ⟨?accepted, ?unique, ?padding, ?garbage, ?trailer⟩
  case accepted =>
    intro out
    rw [decompress_eq_ok_iff]
    constructor
    · rintro ⟨_ | ⟨part, parts⟩, rfl, rfl⟩
      · exact .inl ⟨rfl, rfl⟩
      · exact .inr ⟨part :: parts, List.cons_ne_nil _ _, rfl, rfl⟩
    · rintro (⟨rfl, rfl⟩ | ⟨parts, -, split⟩)
      · exact ⟨[], rfl, rfl⟩
      · exact ⟨parts, split⟩
  case unique =>
    intro parts split
    refine ⟨fun parts' split' => PaddedMember.flatMap_bytes_injective (split'.symm.trans split), ?_⟩
    exact fun capacity n pos => exists_readToEnd_of_parts split capacity pos
  case padding =>
    rintro rest rfl
    refine exists_decompress_eq_error ?_
    intro accepts
    obtain ⟨_ | ⟨part, parts⟩, split⟩ := exists_parts_of_verdictOn accepts
    · cases split
    · obtain ⟨more, begins⟩ := part.exists_cons
      rw [List.flatMap_cons, begins] at split
      cases split
  case garbage =>
    rintro parts rest some rfl garbage noMember
    refine exists_decompress_eq_error ?_
    rw [verdictOn_flatMap]
    intro accepts
    have later : beginning (0 + parts.length) rest = rest.dropWhile (· = 0) :=
      if_neg (by simpa using some)
    obtain ⟨_ | ⟨part, parts'⟩, split⟩ := exists_parts_of_verdictOn accepts
    · exact garbage (later.symm.trans split)
    · rw [later, List.flatMap_cons, PaddedMember.bytes, List.append_assoc] at split
      exact noMember part.member part.payload part.isMember ⟨_, split.symm⟩
  case trailer =>
    rintro parts header body payload rest rfl isHeader isDeflated wrong
    refine exists_decompress_eq_error ?_
    rw [verdictOn_flatMap]
    exact verdictOn_failure_ne_none isHeader isDeflated wrong

end Decompression

end ParallelGzip
