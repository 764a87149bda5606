import ParallelGzip.Proofs.Deflate.Grammar
import ParallelGzip.Proofs.Member.Prospect

set_option autoImplicit false

/-! # The format of members

A member as the format has it, without a reader: a header, a complete compressed stream, and the
checksum and the length of what the stream comes to. The flags in the fixed part of a header say
which fields follow it, and each of them is there just if it is announced.

A reader takes just the headers that the format knows (`MemberHeader.reads_iff`), and so a member is
over just where one of the format ends (`Prospect.ended_iff_isGzipMember`). -/

namespace ParallelGzip

open ParallelGzip.Parser (Reads reads_done_iff reads_need_iff reads_bind_iff reads_symbols_iff)

/-! ## The format -/

namespace MemberHeader

/-- A text of at most `room` bytes, and the NUL behind it. -/
def IsText (room : Nat) (field : Bytes) : Prop :=
  ∃ text, text.length ≤ room ∧ 0 ∉ text ∧ field = text ++ [0]

/-- An extra field behind its length. -/
def IsExtra (field : Bytes) : Prop :=
  ∃ extra, extra.length < 0x10000 ∧ field = Bytes.littleEndian 2 extra.length ++ extra

/-- A check of the header before it: the low half of its checksum. -/
def IsCheck (before field : Bytes) : Prop :=
  field = Bytes.littleEndian 2 (crc32 before 0).toNat

/-- A field if its flag is set, and nothing otherwise. -/
def IsOptional (flags flag : UInt8) (isField : Bytes → Prop) (field : Bytes) : Prop :=
  if flags &&& flag ≠ 0 then isField field else field = []

/-- The fixed part of a header with these flags. The six bytes behind them are the time, the mark of
    the compression and the system, and can be anything. -/
def IsFixed (flags : UInt8) (fixed : Bytes) : Prop :=
  flags &&& reservedFlags = 0 ∧
    ∃ more, more.length = 6 ∧ fixed = Frame.magic ++ [Frame.deflateMethod, flags] ++ more

/-- A header, with the fields that its flags announce. -/
inductive IsHeader : Bytes → Prop
  | mk {flags : UInt8} {fixed extra name comment check : Bytes} (isFixed : IsFixed flags fixed)
      (isExtra : IsOptional flags extraFlag IsExtra extra)
      (isName : IsOptional flags nameFlag (IsText maxTextLength) name)
      (isComment : IsOptional flags commentFlag (IsText maxTextLength) comment)
      (isCheck : IsOptional flags checkFlag (IsCheck (fixed ++ extra ++ name ++ comment)) check) :
      IsHeader (fixed ++ extra ++ name ++ comment ++ check)

end MemberHeader

/-- A member with this payload. -/
def IsGzipMember (member payload : Bytes) : Prop :=
  ∃ header body, MemberHeader.IsHeader header ∧ Deflate.IsDeflated body payload ∧
    member = header ++ body ++ Frame.trailer (crc32 payload 0) payload.length

/-- A header begins with a byte that is not padding. -/
theorem MemberHeader.IsHeader.exists_cons {header : Bytes} (isHeader : IsHeader header) :
    ∃ rest, header = 0x1f :: rest := by
  obtain ⟨⟨-, more, -, rfl⟩, -, -, -, -⟩ := isHeader
  exact ⟨_, rfl⟩

theorem IsGzipMember.exists_cons {member payload : Bytes}
    (isMember : IsGzipMember member payload) : ∃ rest, member = 0x1f :: rest := by
  obtain ⟨header, body, isHeader, -, rfl⟩ := isMember
  obtain ⟨rest, rfl⟩ := isHeader.exists_cons
  exact ⟨_, rfl⟩

/-! ## Headers -/

namespace MemberHeader

variable {bytes : Bytes} {flags flag : UInt8}

/-- A parser of a field takes just the fields of this kind, and keeps the checksum. -/
def Recognizes (field : UInt32 → Parser UInt8 MemberDefect UInt32) (isField : Bytes → Prop) :
    Prop :=
  ∀ crc bytes crc', (field crc).Reads bytes crc' ↔ isField bytes ∧ crc' = crc32 bytes crc

theorem recognizes_skip (n : Nat) : Recognizes (skip n) (·.length = n) := by
  induction n with
  | zero =>
    intro crc bytes crc'
    rw [skip, reads_done_iff]
    constructor
    · rintro ⟨rfl, rfl⟩
      exact ⟨rfl, (crc32_nil _).symm⟩
    · rintro ⟨length, rfl⟩
      obtain rfl := List.length_eq_zero_iff.1 length
      exact ⟨rfl, crc32_nil _⟩
  | succ n ih =>
    intro crc bytes crc'
    rw [skip, reads_need_iff]
    constructor
    · rintro ⟨b, rest, rfl, reads⟩
      obtain ⟨rfl, rfl⟩ := (ih _ _ _).1 reads
      exact ⟨rfl, (crc32_append [b] rest crc).symm⟩
    · rintro ⟨length, rfl⟩
      obtain ⟨b, rest, rfl⟩ := List.exists_cons_of_length_eq_add_one length
      exact ⟨b, rest, rfl, (ih _ _ _).2 ⟨Nat.succ.inj length, crc32_append [b] rest crc⟩⟩

/-- A text is empty, or there is room for its first byte. -/
theorem isText_iff {room : Nat} :
    IsText room bytes ↔ bytes = [0] ∨
      ∃ b rest less, bytes = b :: rest ∧ b ≠ 0 ∧ room = less + 1 ∧ IsText less rest := by
  constructor
  · rintro ⟨text, fits, none, rfl⟩
    cases text with
    | nil => exact .inl rfl
    | cons b text =>
      obtain ⟨less, rfl⟩ := Nat.exists_eq_add_one_of_ne_zero (Nat.ne_zero_of_lt fits)
      obtain ⟨some, none⟩ := List.ne_and_not_mem_of_not_mem_cons none
      exact .inr ⟨b, text ++ [0], less, rfl, some.symm, rfl, text, Nat.le_of_succ_le_succ fits,
        none, rfl⟩
  · rintro (rfl | ⟨b, _, less, rfl, some, rfl, text, fits, none, rfl⟩)
    · exact ⟨[], Nat.zero_le _, List.not_mem_nil, rfl⟩
    · exact ⟨b :: text, Nat.succ_le_succ fits, List.not_mem_cons_of_ne_of_not_mem some.symm none,
        rfl⟩

/-- A parser that is done behind a NUL and goes on behind any other byte. -/
theorem reads_text_iff {next : UInt8 → Parser UInt8 MemberDefect UInt32} {crc crc' : UInt32} :
    (Parser.need 1 fun b => if b = 0 then .done (crc32 [b] crc) else next b).Reads bytes crc' ↔
      (bytes = [0] ∧ crc' = crc32 [0] crc) ∨
      ∃ b rest, bytes = b :: rest ∧ b ≠ 0 ∧ (next b).Reads rest crc' := by
  rw [reads_need_iff]
  constructor
  · rintro ⟨b, rest, rfl, reads⟩
    split at reads
    · next ends =>
      obtain ⟨rfl, rfl⟩ := reads_done_iff.1 reads
      exact .inl ⟨by rw [ends], by rw [ends]⟩
    · next some => exact .inr ⟨b, rest, rfl, some, reads⟩
  · rintro (⟨rfl, rfl⟩ | ⟨b, rest, rfl, some, reads⟩)
    · exact ⟨0, [], rfl, .done _⟩
    · exact ⟨b, rest, rfl, by rwa [if_neg some]⟩

theorem recognizes_skipText (room : Nat) : Recognizes (skipText room) (IsText room) := by
  induction room with
  | zero =>
    intro crc bytes crc'
    rw [skipText, reads_text_iff, isText_iff]
    constructor
    · rintro (⟨rfl, rfl⟩ | ⟨b, rest, rfl, some, refuses⟩)
      · exact ⟨.inl rfl, rfl⟩
      · cases refuses
    · rintro ⟨rfl | ⟨b, rest, less, rfl, some, none, isText⟩, rfl⟩
      · exact .inl ⟨rfl, rfl⟩
      · cases none
  | succ room ih =>
    intro crc bytes crc'
    rw [skipText, reads_text_iff, isText_iff]
    constructor
    · rintro (⟨rfl, rfl⟩ | ⟨b, rest, rfl, some, reads⟩)
      · exact ⟨.inl rfl, rfl⟩
      · obtain ⟨isText, rfl⟩ := (ih _ _ _).1 reads
        exact ⟨.inr ⟨b, rest, room, rfl, some, rfl, isText⟩, (crc32_append [b] rest crc).symm⟩
    · rintro ⟨rfl | ⟨b, rest, less, rfl, some, same, isText⟩, rfl⟩
      · exact .inl ⟨rfl, rfl⟩
      · cases same
        exact .inr ⟨b, rest, rfl, some, (ih _ _ _).2 ⟨isText, crc32_append [b] rest crc⟩⟩

theorem recognizes_skipExtra : Recognizes skipExtra IsExtra := by
  intro crc bytes crc'
  rw [skipExtra, reads_bind_iff]
  constructor
  · rintro ⟨_, extra, length, rfl, reads, behind⟩
    obtain ⟨rfl, width⟩ := reads_symbols_iff.1 reads
    obtain ⟨count, rfl⟩ := (recognizes_skip _ _ _ _).1 behind
    have bound := Bytes.ofLittleEndian_lt length
    have whole := Bytes.littleEndian_ofLittleEndian length
    rw [width, ← count] at bound whole
    exact ⟨⟨extra, bound, by rw [whole]⟩, (crc32_append _ _ _).symm⟩
  · rintro ⟨⟨extra, bound, rfl⟩, rfl⟩
    refine ⟨_, extra, _, rfl, reads_symbols_iff.2 ⟨rfl, Bytes.length_littleEndian _ _⟩, ?_⟩
    have count := (Bytes.ofLittleEndian_littleEndian 2 extra.length).trans (Nat.mod_eq_of_lt bound)
    exact (recognizes_skip _ _ _ _).2 ⟨count.symm, crc32_append _ _ _⟩

theorem Recognizes.optional {field : UInt32 → Parser UInt8 MemberDefect UInt32}
    {isField : Bytes → Prop} (recognizes : Recognizes field isField) (flags flag : UInt8) :
    Recognizes (MemberHeader.optional flags flag field) (IsOptional flags flag isField) := by
  intro crc bytes crc'
  rw [MemberHeader.optional, IsOptional]
  split
  · exact recognizes crc bytes crc'
  · rw [reads_done_iff]
    constructor
    · rintro ⟨rfl, rfl⟩
      exact ⟨rfl, (crc32_nil _).symm⟩
    · rintro ⟨rfl, rfl⟩
      exact ⟨rfl, crc32_nil _⟩

theorem flags?_eq_some_iff {fixed : Bytes} :
    flags? fixed = some flags ∧ fixed.length = Frame.headerLength ↔ IsFixed flags fixed := by
  constructor
  · rintro ⟨known, length⟩
    unfold flags? at known
    split at known
    · next id1 id2 method flags' more =>
      split at known
      · next opens =>
        obtain ⟨magic, rfl, unreserved⟩ := opens
        cases known
        cases magic
        exact ⟨unreserved, more, by simpa [Frame.headerLength] using length, rfl⟩
      · cases known
    · cases known
  · rintro ⟨unreserved, more, length, rfl⟩
    refine ⟨?_, by simp [Frame.magic, Frame.headerLength, length]⟩
    exact if_pos ⟨rfl, rfl, unreserved⟩

theorem reads_check_iff {before : Bytes} :
    (check (crc32 before 0)).Reads bytes () ↔ IsCheck before bytes := by
  rw [check, reads_bind_iff, IsCheck]
  have low := Bytes.ofLittleEndian_littleEndian 2 (crc32 before 0).toNat
  constructor
  · rintro ⟨_, none, field, rfl, reads, decides⟩
    obtain ⟨rfl, width⟩ := reads_symbols_iff.1 reads
    split at decides
    · next same =>
      obtain ⟨rfl, -⟩ := reads_done_iff.1 decides
      rw [List.append_nil]
      exact Bytes.ofLittleEndian_injective (width.trans (Bytes.length_littleEndian _ _).symm)
        (same.trans low.symm)
    · cases decides
  · rintro rfl
    refine ⟨_, [], _, (List.append_nil _).symm,
      reads_symbols_iff.2 ⟨rfl, Bytes.length_littleEndian _ _⟩, ?_⟩
    rw [if_pos low]
    exact .done ()

/-- The check at the end of a header, if there is one. -/
theorem reads_optionalCheck_iff {before : Bytes} :
    (if flags &&& checkFlag ≠ 0 then check (crc32 before 0) else .done ()).Reads bytes () ↔
      IsOptional flags checkFlag (IsCheck before) bytes := by
  rw [IsOptional]
  split
  · exact reads_check_iff
  · rw [reads_done_iff]
    exact and_iff_left rfl

/-- A reader takes just the headers of the format. -/
theorem reads_iff {header : Bytes} : read.Reads header () ↔ IsHeader header := by
  have joined : ∀ fixed extra name comment : Bytes,
      crc32 comment (crc32 name (crc32 extra (crc32 fixed 0))) =
        crc32 (fixed ++ extra ++ name ++ comment) 0 := by
    intro fixed extra name comment
    rw [crc32_append, crc32_append, crc32_append]
  rw [read, reads_bind_iff]
  constructor
  · rintro ⟨_, behind, fixed, rfl, reads, goesOn⟩
    obtain ⟨rfl, length⟩ := reads_symbols_iff.1 reads
    split at goesOn
    · cases goesOn
    · next flags known =>
      have isFixed := flags?_eq_some_iff.1 ⟨known, length⟩
      obtain ⟨extra, behind, crc, rfl, reads_extra, goesOn⟩ := reads_bind_iff.1 goesOn
      obtain ⟨isExtra, rfl⟩ := (recognizes_skipExtra.optional _ _ _ _ _).1 reads_extra
      obtain ⟨name, behind, crc, rfl, reads_name, goesOn⟩ := reads_bind_iff.1 goesOn
      obtain ⟨isName, rfl⟩ := ((recognizes_skipText _).optional _ _ _ _ _).1 reads_name
      obtain ⟨comment, check, crc, rfl, reads_comment, goesOn⟩ := reads_bind_iff.1 goesOn
      obtain ⟨isComment, rfl⟩ := ((recognizes_skipText _).optional _ _ _ _ _).1 reads_comment
      rw [joined] at goesOn
      rw [← List.append_assoc, ← List.append_assoc, ← List.append_assoc]
      exact ⟨isFixed, isExtra, isName, isComment, reads_optionalCheck_iff.1 goesOn⟩
  · rintro ⟨isFixed, isExtra, isName, isComment, isCheck⟩
    obtain ⟨known, length⟩ := flags?_eq_some_iff.2 isFixed
    rw [List.append_assoc, List.append_assoc, List.append_assoc]
    refine ⟨_, _, _, rfl, reads_symbols_iff.2 ⟨rfl, length⟩, ?_⟩
    rw [known]
    refine ((recognizes_skipExtra.optional _ _ _ _ _).2 ⟨isExtra, rfl⟩).bind ?_
    refine (((recognizes_skipText _).optional _ _ _ _ _).2 ⟨isName, rfl⟩).bind ?_
    refine (((recognizes_skipText _).optional _ _ _ _ _).2 ⟨isComment, rfl⟩).bind ?_
    rw [joined]
    exact reads_optionalCheck_iff.2 isCheck

end MemberHeader

/-! ## Members -/

/-- A reader takes just the right trailer. -/
theorem MemberTrailer.reads_iff {crc : UInt32} {size : Nat} {trailer : Bytes} :
    (read crc size).Reads trailer () ↔ trailer = Frame.trailer crc size := by
  rw [read, reads_bind_iff]
  constructor
  · rintro ⟨_, none, field, rfl, reads, decides⟩
    obtain ⟨rfl, -⟩ := reads_symbols_iff.1 reads
    split at decides
    · next same =>
      obtain ⟨rfl, -⟩ := reads_done_iff.1 decides
      rw [List.append_nil]
      exact same
    · cases decides
  · rintro rfl
    refine ⟨_, [], _, (List.append_nil _).symm,
      reads_symbols_iff.2 ⟨rfl, Frame.length_trailer _ _⟩, ?_⟩
    rw [if_pos rfl]
    exact .done ()

/-- Behind a header and a complete compressed stream everything depends on the trailer. -/
theorem Prospect.ofHeader_of_isDeflated {header body payload : Bytes}
    (isHeader : MemberHeader.IsHeader header) (isDeflated : Deflate.IsDeflated body payload)
    (rest : Bytes) :
    ofHeader MemberHeader.read (header ++ (body ++ rest)) =
      ⟨payload, .ofTrailer (MemberTrailer.read (crc32 payload 0) payload.length) rest⟩ := by
  have reads := MemberHeader.reads_iff.2 isHeader
  rw [ofHeader, Parser.reading_eq_done_iff.2 ⟨header, rfl, reads⟩]
  dsimp only
  rw [ofBody, isDeflated.drain rest]
  rfl

/-- A member is over just where one of the format ends. -/
theorem Prospect.ended_iff_isGzipMember {data payload rest : Bytes} :
    ofHeader MemberHeader.read data = ⟨payload, .ended rest⟩ ↔
      ∃ member, data = member ++ rest ∧ IsGzipMember member payload := by
  constructor
  · intro ends
    obtain ⟨header, behind, z, trailer, rfl, reads, result, whole, reads_trailer⟩ :=
      ofHeader_eq_ended_iff.1 ends
    obtain ⟨body, content, rfl, isDeflated, rfl⟩ := Deflate.drain_finished_iff.1 result
    obtain rfl : content = payload := whole
    obtain rfl : trailer = Frame.trailer (crc32 content 0) content.length :=
      MemberTrailer.reads_iff.1 reads_trailer
    exact ⟨_, by simp only [List.append_assoc], header, body, MemberHeader.reads_iff.1 reads,
      isDeflated, rfl⟩
  · rintro ⟨_, rfl, header, body, isHeader, isDeflated, rfl⟩
    rw [List.append_assoc, List.append_assoc, ofHeader_of_isDeflated isHeader isDeflated,
      Fate.ofTrailer_eq_ended_iff.2 ⟨_, rfl, MemberTrailer.reads_iff.2 rfl⟩]

end ParallelGzip
