import ParallelGzip.Stream.Parse

set_option autoImplicit false

/-! # What parsers read

`p.Reads symbols value` says that the parser takes exactly these symbols and comes to this value. It
goes together along `>>=`, so what a parser of a format reads is shown field by field. -/

namespace ParallelGzip

namespace Parser

variable {τ ε α β : Type}

/-- The parser takes exactly these symbols and comes to this value. -/
inductive Reads : Parser τ ε α → List τ → α → Prop
  | done (value : α) : Reads (.done value) [] value
  | need {want : Nat} {next : τ → Parser τ ε α} {symbol : τ} {symbols : List τ} {value : α}
      (rest : Reads (next symbol) symbols value) : Reads (.need want next) (symbol :: symbols) value

theorem reads_done_iff {value value' : α} {symbols : List τ} :
    (.done value : Parser τ ε α).Reads symbols value' ↔ symbols = [] ∧ value' = value := by
  constructor
  · rintro ⟨⟩
    exact ⟨rfl, rfl⟩
  · rintro ⟨rfl, rfl⟩
    exact .done _

theorem reads_need_iff {want : Nat} {next : τ → Parser τ ε α} {symbols : List τ} {value : α} :
    (Parser.need want next).Reads symbols value ↔
      ∃ symbol rest, symbols = symbol :: rest ∧ (next symbol).Reads rest value := by
  constructor
  · rintro (_ | rest)
    exact ⟨_, _, rfl, rest⟩
  · rintro ⟨symbol, rest, rfl, reads⟩
    exact .need reads

theorem Reads.bind {p : Parser τ ε α} {f : α → Parser τ ε β} {first second : List τ} {value : α}
    {result : β} (hp : p.Reads first value) (hf : (f value).Reads second result) :
    (p >>= f).Reads (first ++ second) result := by
  induction hp with
  | done value => exact hf
  | need _ ih => exact .need (ih hf)

/-- A parser that does not read on adds nothing. -/
theorem Reads.bind_done {p : Parser τ ε α} {f : α → Parser τ ε β} {symbols : List τ} {value : α}
    {result : β} (hp : p.Reads symbols value) (hf : f value = .done result) :
    (p >>= f).Reads symbols result := by
  have together := hp.bind (hf ▸ .done result : (f value).Reads [] result)
  rwa [List.append_nil] at together

theorem reads_symbols (symbols : List τ) :
    (Parser.symbols symbols.length : Parser τ ε (List τ)).Reads symbols symbols := by
  induction symbols with
  | nil => exact .done []
  | cons first rest ih => exact .need (ih.bind_done rfl)

/-- What two parsers read one after the other can be told apart. -/
theorem Reads.of_bind {p : Parser τ ε α} {f : α → Parser τ ε β} {symbols : List τ} {result : β}
    (reads : (p >>= f).Reads symbols result) :
    ∃ first second value, symbols = first ++ second ∧ p.Reads first value ∧
      (f value).Reads second result := by
  induction p generalizing symbols with
  | done value => exact ⟨[], symbols, value, rfl, .done value, reads⟩
  | fail | refuse => cases reads
  | need want next ih =>
    cases reads with
    | @need _ _ symbol symbols _ rest =>
      obtain ⟨first, second, value, rfl, before, behind⟩ := ih symbol rest
      exact ⟨symbol :: first, second, value, rfl, .need before, behind⟩

theorem reads_bind_iff {p : Parser τ ε α} {f : α → Parser τ ε β} {symbols : List τ} {result : β} :
    (p >>= f).Reads symbols result ↔ ∃ first second value, symbols = first ++ second ∧
      p.Reads first value ∧ (f value).Reads second result := by
  refine ⟨Reads.of_bind, ?_⟩
  rintro ⟨first, second, value, rfl, before, behind⟩
  exact before.bind behind

theorem reads_symbols_iff {n : Nat} {symbols value : List τ} :
    (Parser.symbols n : Parser τ ε (List τ)).Reads symbols value ↔
      value = symbols ∧ symbols.length = n := by
  constructor
  · intro reads
    induction n generalizing symbols value with
    | zero =>
      cases reads
      exact ⟨rfl, rfl⟩
    | succ n ih =>
      cases reads with
      | need rest =>
        obtain ⟨first, second, value, rfl, before, behind⟩ := rest.of_bind
        obtain ⟨rfl, rfl⟩ := ih before
        cases behind
        exact ⟨by rw [List.append_nil], by rw [List.append_nil, List.length_cons]⟩
  · rintro ⟨rfl, rfl⟩
    exact reads_symbols value

theorem Reads.refusal?_eq_none {p : Parser τ ε α} {symbols : List τ} {value : α}
    (reads : p.Reads symbols value) : p.refusal? = none := by
  cases reads <;> rfl

end Parser

namespace Buffered

variable {σ ε α : Type} [Source σ]

theorem nextByte_of_cons {b : Buffered σ} {c : UInt8} {bytes : Bytes}
    (buffer : b.buffer = c :: bytes) (want : Nat) :
    b.nextByte want = (.byte c, { b with buffer := bytes }) := by
  have held : b.refill (max want b.capacity) = (.delivered (c :: bytes), b) := by
    rw [refill, if_neg (by simp [buffer]), buffer]
  rw [nextByte]
  split
  · next found =>
    rw [held] at found
    cases found
  · next found =>
    rw [held] at found
    cases found
    rw [consume, buffer, List.drop_one, List.tail_cons]
  all_goals
    next found =>
      rw [held] at found
      cases found

/-- A parser that finds in the buffer what it reads takes it from there. -/
theorem parse_of_reads {p : Parser UInt8 ε α} {b : Buffered σ} {bytes rest : Bytes} {value : α}
    (reads : p.Reads bytes value) (buffer : b.buffer = bytes ++ rest) :
    b.parse p = (.done value, .done value, { b with buffer := rest }) := by
  induction reads generalizing b with
  | done value =>
    rw [List.nil_append] at buffer
    rw [parse, ← buffer]
  | need more ih =>
    rw [parse, nextByte_of_cons buffer]
    dsimp only
    rw [more.refusal?_eq_none]
    exact ih rfl

end Buffered

end ParallelGzip
