import ParallelGzip.OpenMode

set_option autoImplicit false

/-! # Open modes: which texts say one

A text says a mode if nothing but `b` stands beside the one letter of that mode. Every other text is
refused, and what is reported is decided by the first letter from the left that may not stand where
it stands; only a text without such a letter can be refused for want of a mode. `Scanned` is what
is known of the letters that have been read: one more letter either keeps it or is the offence. -/

namespace ParallelGzip

namespace OpenMode

/-! ## Letters -/

/-- The letter of a mode. -/
def letter : OpenMode → Char
  | read => 'r'
  | write => 'w'
  | append => 'a'
  | exclusive => 'x'

theorem ofLetter?_letter (mode : OpenMode) : ofLetter? mode.letter = some mode := by
  cases mode <;> rfl

theorem eq_letter_of_ofLetter? {c : Char} {mode : OpenMode} (stands : ofLetter? c = some mode) :
    c = mode.letter := by
  unfold ofLetter? at stands
  split at stands <;> cases stands <;> rfl

theorem ne_letter_of_ofLetter? {c : Char} (nothing : ofLetter? c = none) (mode : OpenMode) :
    c ≠ mode.letter := by
  rintro rfl
  rw [ofLetter?_letter] at nothing
  cases nothing

theorem letter_injective {first second : OpenMode} (same : first.letter = second.letter) :
    first = second :=
  Option.some.inj <| by rw [← ofLetter?_letter first, same, ofLetter?_letter]

theorem letter_ne_binary (mode : OpenMode) : mode.letter ≠ 'b' := by
  cases mode <;> decide

theorem letter_ne_text (mode : OpenMode) : mode.letter ≠ 't' := by
  cases mode <;> decide

/-! ## What a text says -/

/-- A text that says `mode`: there are no letters but `b` and those of modes, and exactly one
    position holds the letter of a mode, which is this one. -/
structure Means (letters : List Char) (mode : OpenMode) : Prop where
  allowed : ∀ c ∈ letters, c = 'b' ∨ ∃ mode : OpenMode, c = mode.letter
  once : ∃ i : Nat, letters[i]? = some mode.letter ∧
    ∀ (j : Nat) (other : OpenMode), letters[j]? = some other.letter → j = i

/-- The letter at a position may not stand there. -/
inductive Offends (letters : List Char) (i : Nat) : Refusal → Prop
  | textMode (found : letters[i]? = some 't') : Offends letters i .textMode
  | foreignLetter {c : Char} (found : letters[i]? = some c) (notBinary : c ≠ 'b')
      (notText : c ≠ 't') (foreign : ∀ mode : OpenMode, c ≠ mode.letter) :
      Offends letters i .foreignLetter
  | secondMode {first second : OpenMode} {j : Nat} (found : letters[i]? = some second.letter)
      (earlier : j < i) (already : letters[j]? = some first.letter) : Offends letters i .secondMode

/-- Why a text is refused: for the first offence from the left, and if there is none, then for want
    of a mode. -/
inductive Refused (letters : List Char) : Refusal → Prop
  | offence {i : Nat} {refusal : Refusal} (offends : Offends letters i refusal)
      (first : ∀ j < i, ∀ other, ¬Offends letters j other) : Refused letters refusal
  | noMode (clean : ∀ i other, ¬Offends letters i other)
      (none : ∀ mode : OpenMode, mode.letter ∉ letters) : Refused letters .noMode

variable {letters before rest : List Char} {i : Nat} {mode mode' : OpenMode}
  {refusal other : Refusal}

/-- Whether a letter offends is decided by the letters up to it. -/
theorem Offends.of_append (offends : Offends (before ++ rest) i refusal)
    (inside : i < before.length) : Offends before i refusal := by
  cases offends with
  | textMode found => exact .textMode (List.getElem?_append_left inside ▸ found)
  | foreignLetter found notBinary notText foreign =>
    exact .foreignLetter (List.getElem?_append_left inside ▸ found) notBinary notText foreign
  | secondMode found earlier already =>
    exact .secondMode (List.getElem?_append_left inside ▸ found) earlier
      (List.getElem?_append_left (Nat.lt_trans earlier inside) ▸ already)

theorem Offends.unique (offends : Offends letters i refusal) (again : Offends letters i other) :
    refusal = other := by
  have one : ∀ {c d : Char}, letters[i]? = some c → letters[i]? = some d → c = d :=
    fun found found' => Option.some.inj (found.symm.trans found')
  cases offends with
  | textMode found =>
    cases again with
    | textMode => rfl
    | foreignLetter found' _ notText => exact absurd (one found' found) notText
    | secondMode found' => exact absurd (one found' found) (letter_ne_text _)
  | foreignLetter found notBinary notText foreign =>
    cases again with
    | textMode found' => exact absurd (one found found') notText
    | foreignLetter => rfl
    | secondMode found' => exact absurd (one found found') (foreign _)
  | secondMode found =>
    cases again with
    | textMode found' => exact absurd (one found found') (letter_ne_text _)
    | foreignLetter found' _ _ foreign => exact absurd (one found' found) (foreign _)
    | secondMode => rfl

/-! ## Reading from the left -/

/-- What is known of letters that have been read without an offence; `seen` is the mode that was
    found among them. -/
structure Scanned (letters : List Char) (seen : Option OpenMode) : Prop where
  allowed : ∀ c ∈ letters, c = 'b' ∨ ∃ mode : OpenMode, c = mode.letter
  found : ∀ mode, seen = some mode → ∃ i : Nat, letters[i]? = some mode.letter
  known : ∀ (i : Nat) (mode : OpenMode), letters[i]? = some mode.letter → seen = some mode
  once : ∀ (i j : Nat) (first second : OpenMode), letters[i]? = some first.letter →
    letters[j]? = some second.letter → i = j

/-- What is behind the letters that have been read, if one more is read. -/
theorem eq_length_of_concat {c d : Char} (found : (before ++ [c])[i]? = some d) :
    before[i]? = some d ∨ i = before.length ∧ c = d := by
  rw [List.getElem?_append] at found
  split at found
  · exact .inl found
  · next outside =>
    obtain ⟨bound, same⟩ := List.getElem?_eq_some_iff.1 found
    rw [List.length_singleton] at bound
    exact .inr ⟨by omega, by simpa using same⟩

theorem scanned_nil : Scanned [] none := by
  constructor <;> simp

namespace Scanned

variable {seen : Option OpenMode}

theorem binary (scanned : Scanned before seen) : Scanned (before ++ ['b']) seen := by
  have old : ∀ (i : Nat) (mode : OpenMode), (before ++ ['b'])[i]? = some mode.letter →
      before[i]? = some mode.letter := by
    intro i mode found
    exact (eq_length_of_concat found).resolve_right fun last => letter_ne_binary mode last.2.symm
  constructor
  · intro c member
    rcases List.mem_append.1 member with read | last
    · exact scanned.allowed c read
    · exact .inl (List.mem_singleton.1 last)
  · intro mode is
    obtain ⟨i, found⟩ := scanned.found mode is
    exact ⟨i, List.getElem?_append_left (List.getElem?_eq_some_iff.1 found).1 ▸ found⟩
  · intro i mode found
    exact scanned.known i mode (old i mode found)
  · intro i j first second found found'
    exact scanned.once i j first second (old i first found) (old j second found')

theorem concat (scanned : Scanned before none) (mode : OpenMode) :
    Scanned (before ++ [mode.letter]) (some mode) := by
  have last : ∀ (i : Nat) (other : OpenMode), (before ++ [mode.letter])[i]? = some other.letter →
      i = before.length ∧ mode = other := by
    intro i other found
    rcases eq_length_of_concat found with read | ⟨position, same⟩
    · cases scanned.known i other read
    · exact ⟨position, letter_injective same⟩
  constructor
  · intro c member
    rcases List.mem_append.1 member with read | new
    · exact scanned.allowed c read
    · exact .inr ⟨mode, List.mem_singleton.1 new⟩
  · rintro _ ⟨⟩
    exact ⟨before.length, List.getElem?_concat_length⟩
  · intro i other found
    exact congrArg some (last i other found).2
  · intro i j first second found found'
    rw [(last i first found).1, (last j second found').1]

/-- Among letters that have been read there is no offence. -/
theorem not_offends (scanned : Scanned letters seen) (i : Nat) (refusal : Refusal) :
    ¬Offends letters i refusal := by
  intro offends
  cases offends with
  | textMode found =>
    rcases scanned.allowed _ (List.mem_of_getElem? found) with binary | ⟨mode, same⟩
    · exact absurd binary (by decide)
    · exact letter_ne_text mode same.symm
  | foreignLetter found notBinary _ foreign =>
    rcases scanned.allowed _ (List.mem_of_getElem? found) with binary | ⟨mode, same⟩
    · exact notBinary binary
    · exact foreign mode same
  | secondMode found earlier already =>
    exact Nat.ne_of_lt earlier (scanned.once _ _ _ _ already found)

/-- An offence behind the letters that have been read is the first one. -/
theorem refused (scanned : Scanned before seen)
    (offends : Offends (before ++ rest) before.length refusal) :
    Refused (before ++ rest) refusal :=
  .offence offends fun j inside other offends' =>
    scanned.not_offends j other (offends'.of_append inside)

theorem means (scanned : Scanned letters (some mode)) : Means letters mode where
  allowed := scanned.allowed
  once := by
    obtain ⟨i, found⟩ := scanned.found mode rfl
    exact ⟨i, found, fun j other found' => scanned.once j i other mode found' found⟩

theorem noMode (scanned : Scanned letters none) : Refused letters .noMode := by
  refine .noMode scanned.not_offends fun mode member => ?_
  obtain ⟨i, found⟩ := List.getElem?_of_mem member
  cases scanned.known i mode found

end Scanned

/-! ## Every text is judged, and in one way -/

theorem Means.scanned (means : Means letters mode) : Scanned letters (some mode) := by
  obtain ⟨i, found, only⟩ := means.once
  refine ⟨means.allowed, ?_, ?_, ?_⟩
  · rintro _ ⟨⟩
    exact ⟨i, found⟩
  · intro j other found'
    obtain rfl := only j other found'
    exact congrArg some (letter_injective (Option.some.inj (found.symm.trans found')))
  · intro j k first second found' found''
    rw [only j first found', only k second found'']

theorem Means.unique (means : Means letters mode) (again : Means letters mode') : mode = mode' := by
  obtain ⟨i, found, -⟩ := again.once
  exact Option.some.inj (means.scanned.known i mode' found)

theorem Means.not_refused (means : Means letters mode) : ¬Refused letters refusal := by
  rintro (⟨offends, -⟩ | ⟨-, none⟩)
  · exact means.scanned.not_offends _ _ offends
  · obtain ⟨i, found, -⟩ := means.once
    exact none mode (List.mem_of_getElem? found)

theorem Refused.unique (refused : Refused letters refusal) (again : Refused letters other) :
    refusal = other := by
  cases refused with
  | @offence i _ offends first =>
    cases again with
    | @offence j _ offends' first' =>
      rcases Nat.lt_trichotomy i j with less | rfl | more
      · exact absurd offends (first' i less _)
      · exact offends.unique offends'
      · exact absurd offends' (first j more _)
    | noMode clean => exact absurd offends (clean _ _)
  | noMode clean =>
    cases again with
    | offence offends => exact absurd offends (clean _ _)
    | noMode => rfl

/-- What is to be said of an answer about a text. -/
def Judges (letters : List Char) : Except Refusal OpenMode → Prop
  | .ok mode => Means letters mode
  | .error refusal => Refused letters refusal

/-- The induction is on the letters still to be read; what is known of those before is carried
    along. -/
theorem judges_parseLetters {seen : Option OpenMode} (scanned : Scanned before seen)
    (rest : List Char) : Judges (before ++ rest) (parseLetters seen rest) := by
  induction rest generalizing before seen with
  | nil =>
    rw [List.append_nil]
    cases seen with
    | none => exact scanned.noMode
    | some mode => exact scanned.means
  | cons c rest ih =>
    have onwards : before ++ c :: rest = before ++ [c] ++ rest := by simp
    have next : (before ++ c :: rest)[before.length]? = some c := by simp
    unfold parseLetters
    split
    · next binary =>
      subst binary
      rw [onwards]
      exact ih scanned.binary
    split
    · next text =>
      subst text
      exact scanned.refused (.textMode next)
    next notBinary notText =>
    split
    · next nothing =>
      exact scanned.refused
        (.foreignLetter next notBinary notText (ne_letter_of_ofLetter? nothing))
    · next second first stands =>
      obtain ⟨j, already⟩ := scanned.found first rfl
      have inside := (List.getElem?_eq_some_iff.1 already).1
      have here : (before ++ c :: rest)[before.length]? = some second.letter := by
        rw [next, eq_letter_of_ofLetter? stands]
      have there : (before ++ c :: rest)[j]? = some first.letter := by
        rw [List.getElem?_append_left inside, already]
      exact scanned.refused (.secondMode here inside there)
    · next mode stands =>
      rw [onwards, eq_letter_of_ofLetter? stands]
      exact ih (scanned.concat mode)

theorem parseLetters_eq_ok_iff : parseLetters none letters = .ok mode ↔ Means letters mode := by
  have judged := judges_parseLetters scanned_nil letters
  rw [List.nil_append] at judged
  constructor
  · intro parsed
    rwa [parsed] at judged
  · intro means
    cases parsed : parseLetters none letters with
    | ok mode' =>
      rw [parsed] at judged
      exact congrArg Except.ok (judged.unique means)
    | error refusal =>
      rw [parsed] at judged
      exact absurd judged means.not_refused

theorem parseLetters_eq_error_iff :
    parseLetters none letters = .error refusal ↔ Refused letters refusal := by
  have judged := judges_parseLetters scanned_nil letters
  rw [List.nil_append] at judged
  constructor
  · intro parsed
    rwa [parsed] at judged
  · intro refused
    cases parsed : parseLetters none letters with
    | ok mode =>
      rw [parsed] at judged
      exact absurd refused (Means.not_refused judged)
    | error other =>
      rw [parsed] at judged
      exact congrArg Except.error (judged.unique refused)

/-- A text is read as a mode just if it says that mode. Otherwise it is refused as an invalid mode,
    for the first letter from the left that may not stand where it stands: a `t`, any other letter
    that is neither `b` nor that of a mode, or the letter of a mode behind another; or, where there
    is no such letter, because it says no mode. -/
theorem parse_language (text : String) :
    (∀ mode, parse text = .ok mode ↔ Means text.toList mode) ∧
    ∀ failure, parse text = .error failure ↔
      ∃ refusal, Refused text.toList refusal ∧ failure = .invalidMode (refusal.reason text) := by
  rw [parse]
  cases result : parseLetters none text.toList with
  | ok found =>
    have means := parseLetters_eq_ok_iff.1 result
    refine ⟨fun mode => ?_, fun failure => iff_of_false (by simp) ?_⟩
    · rw [← parseLetters_eq_ok_iff, result]
      simp only [Except.ok.injEq]
    · rintro ⟨refusal, refused, -⟩
      exact means.not_refused refused
  | error found =>
    have refused := parseLetters_eq_error_iff.1 result
    refine ⟨fun mode => iff_of_false (by simp) fun means => means.not_refused refused, ?_⟩
    intro failure
    constructor
    · rintro ⟨⟩
      exact ⟨found, refused, rfl⟩
    · rintro ⟨refusal, again, rfl⟩
      rw [refused.unique again]

/-- The second mode comes before the `t`. -/
example : parseLetters none "bwrt".toList = .error .secondMode := rfl

end OpenMode

end ParallelGzip
