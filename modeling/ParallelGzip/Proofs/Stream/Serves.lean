import ParallelGzip.Proofs.Stream.Reads
import ParallelGzip.Stream.Scripted

set_option autoImplicit false

/-! # Sources that serve a byte string

Where a source cuts its data into pieces, and which requests it refuses although they may be made
again, is its own business. `Source.Serves` says no more than that the pieces make up the data and
that the refusals come to an end; what is shown of such a source holds of every segmentation of the
data. A buffer in front of it and a parser that runs on the buffer come to what they would come to
on the data itself: `Parser.reading` is what the parser makes of it, and `Buffered.Holds.parse` says
so. -/

namespace ParallelGzip

/-! ## Sources -/

namespace Source

/-- What may be the answer to a request for `n` bytes by a source that has `data` still to serve and
    will refuse so many requests at most; `keeps` tells what the source has left. -/
inductive Answers {σ : Type} (keeps : σ → Bytes → Nat → Prop) (n : Nat) :
    Bytes → Nat → ReadResult × σ → Prop
  | piece {s : σ} {bytes later : Bytes} {refusals refusals' : Nat} (some : bytes ≠ [])
      (fits : bytes.length ≤ n) (fewer : refusals' ≤ refusals) (next : keeps s later refusals') :
      Answers keeps n (bytes ++ later) refusals (.delivered bytes, s)
  /-- Nothing is delivered where nothing was asked for, and at the end. -/
  | nothing {s : σ} {data : Bytes} {refusals refusals' : Nat} (none : n = 0 ∨ data = [])
      (fewer : refusals' ≤ refusals) (next : keeps s data refusals') :
      Answers keeps n data refusals (.delivered [], s)
  | interrupted {s : σ} {data : Bytes} {refusals refusals' : Nat} {cause : IoError}
      (kind : cause.kind = .interrupted) (fewer : refusals' < refusals)
      (next : keeps s data refusals') : Answers keeps n data refusals (.interrupted cause, s)
  | blocked {s : σ} {data : Bytes} {refusals refusals' : Nat} {cause : IoError}
      (kind : cause.kind = .wouldBlock) (fewer : refusals' < refusals)
      (next : keeps s data refusals') : Answers keeps n data refusals (.failed cause, s)

theorem Answers.mono {σ : Type} {keeps keeps' : σ → Bytes → Nat → Prop} {n : Nat} {data : Bytes}
    {refusals : Nat} {answer : ReadResult × σ} (answers : Answers keeps n data refusals answer)
    (weaker : ∀ s data refusals, keeps s data refusals → keeps' s data refusals) :
    Answers keeps' n data refusals answer := by
  cases answers with
  | piece some fits fewer next => exact .piece some fits fewer (weaker _ _ _ next)
  | nothing none fewer next => exact .nothing none fewer (weaker _ _ _ next)
  | interrupted kind fewer next => exact .interrupted kind fewer (weaker _ _ _ next)
  | blocked kind fewer next => exact .blocked kind fewer (weaker _ _ _ next)

variable {σ : Type} [Source σ]

/-- The source serves `data`, in pieces of any sizes, and refuses so many requests at most. -/
def Serves (s : σ) (data : Bytes) (refusals : Nat) : Prop :=
  ∃ keeps : σ → Bytes → Nat → Prop,
    (∀ s data refusals n, keeps s data refusals →
      Answers keeps n data refusals (Source.read s n)) ∧
    keeps s data refusals

theorem Serves.read {s : σ} {data : Bytes} {refusals : Nat} (serves : Serves s data refusals)
    (n : Nat) : Answers Serves n data refusals (Source.read s n) := by
  obtain ⟨keeps, answers, kept⟩ := serves
  refine (answers s data refusals n kept).mono ?_
  intro s data refusals kept
  exact ⟨keeps, answers, kept⟩

/-- A source that refuses fewer requests. -/
theorem Serves.mono {s : σ} {data : Bytes} {refusals refusals' : Nat}
    (serves : Serves s data refusals') (fewer : refusals' ≤ refusals) :
    Serves s data refusals := by
  refine ⟨fun s data refusals => ∃ refusals' ≤ refusals, Serves s data refusals', ?_, _, fewer,
    serves⟩
  rintro s data refusals n ⟨refusals', fewer, serves⟩
  have answers := serves.read n
  generalize Source.read s n = answer at answers ⊢
  cases answers with
  | piece some fits fewer' next =>
    exact .piece some fits (Nat.le_trans fewer' fewer) ⟨_, Nat.le_refl _, next⟩
  | nothing none fewer' next =>
    exact .nothing none (Nat.le_trans fewer' fewer) ⟨_, Nat.le_refl _, next⟩
  | interrupted kind fewer' next =>
    exact .interrupted kind (Nat.lt_of_lt_of_le fewer' fewer) ⟨_, Nat.le_refl _, next⟩
  | blocked kind fewer' next =>
    exact .blocked kind (Nat.lt_of_lt_of_le fewer' fewer) ⟨_, Nat.le_refl _, next⟩

end Source

/-- Nothing is served by the source that has nothing. -/
theorem NoSource.serves (s : NoSource) : Source.Serves s [] 0 := by
  refine ⟨fun _ data _ => data = [], ?_, rfl⟩
  rintro s data refusals n rfl
  exact .nothing (.inr rfl) (Nat.le_refl _) rfl

/-- What a source does with one request. -/
inductive Turn
  /-- It serves, but no more than `more + 1` bytes. -/
  | serve (more : Nat)
  | interrupted
  | blocked

/-- A source that does with its next requests what a schedule says, and serves all later ones. -/
structure Scheduled where
  data : Bytes
  turns : List Turn

namespace Scheduled

/-- Serve at most `n` bytes. -/
def serve (s : Scheduled) (n : Nat) : ReadResult × Scheduled :=
  (.delivered (s.data.take n), { s with data := s.data.drop n })

/-- Ask for at most `n` bytes. -/
def read (s : Scheduled) (n : Nat) : ReadResult × Scheduled :=
  match s.turns with
  | [] => s.serve n
  | .serve more :: turns => { s with turns }.serve (min n (more + 1))
  | .interrupted :: turns => (.interrupted (.bare .interrupted), { s with turns })
  | .blocked :: turns => (.failed (.bare .wouldBlock), { s with turns })

instance : Source Scheduled where
  read := read
  supply s := s.data.length
  patience s := s.turns.length
  supply_read s n := by
    rw [read]
    split <;> simp [serve] <;> omega
  patience_read s n cause h := by
    rw [read] at h ⊢
    split <;> simp_all [serve]

/-- What a source keeps to: it has this data left, and refuses at most once a turn. -/
def Keeps (s : Scheduled) (data : Bytes) (refusals : Nat) : Prop :=
  data = s.data ∧ s.turns.length ≤ refusals

theorem answers_serve (s : Scheduled) {n k : Nat} (some : k = 0 → n = 0) (few : k ≤ n)
    {refusals : Nat} (enough : s.turns.length ≤ refusals) :
    Source.Answers Keeps n s.data refusals (s.serve k) := by
  by_cases none : s.data.take k = []
  · have left : s.data.drop k = s.data := by
      rcases List.take_eq_nil_iff.1 none with rfl | empty
      · exact List.drop_zero
      · rw [empty, List.drop_nil]
    rw [serve, none, left]
    refine .nothing ((List.take_eq_nil_iff.1 none).imp some id) (Nat.le_refl _) ⟨rfl, enough⟩
  · have pieces : s.data = s.data.take k ++ s.data.drop k := (List.take_append_drop k s.data).symm
    have answer : Source.Answers Keeps n (s.data.take k ++ s.data.drop k) refusals (s.serve k) :=
      .piece none (Nat.le_trans (List.length_take_le k s.data) few) (Nat.le_refl refusals)
        ⟨rfl, enough⟩
    rwa [← pieces] at answer

/-- Every schedule is a segmentation of the data. -/
theorem serves (s : Scheduled) : Source.Serves s s.data s.turns.length := by
  refine ⟨Keeps, ?_, rfl, Nat.le_refl _⟩
  rintro s _ refusals n ⟨rfl, enough⟩
  obtain ⟨data, turns⟩ := s
  cases turns with
  | nil => exact answers_serve ⟨data, []⟩ id (Nat.le_refl n) enough
  | cons turn turns =>
    have later : turns.length < refusals := enough
    dsimp only
    cases turn with
    | serve more =>
      exact answers_serve ⟨data, turns⟩ (by omega) (Nat.min_le_left n _) (Nat.le_of_lt later)
    | interrupted => exact .interrupted rfl later ⟨rfl, Nat.le_refl _⟩
    | blocked => exact .blocked rfl later ⟨rfl, Nat.le_refl _⟩

end Scheduled

/-! ## Buffers -/

namespace Buffered

variable {σ : Type} [Source σ] {b : Buffered σ} {data : Bytes} {refusals : Nat}

/-- The buffer and the source behind it serve `data` together. A buffer without capacity never gets
    anything out of its source. -/
def Holds (b : Buffered σ) (data : Bytes) (refusals : Nat) : Prop :=
  ∃ later, data = b.buffer ++ later ∧ Source.Serves b.source later refusals ∧
    (0 < b.capacity ∨ later = [])

/-- A buffer that has been filled, and what is in it. -/
inductive Filled (data : Bytes) (refusals : Nat) : ReadResult × Buffered σ → Prop
  | some {b : Buffered σ} {slice : Bytes} {refusals' : Nat} (nonempty : slice ≠ [])
      (buffer : b.buffer = slice) (fewer : refusals' ≤ refusals) (holds : b.Holds data refusals') :
      Filled data refusals (.delivered slice, b)
  | ended {b : Buffered σ} {refusals' : Nat} (ends : data = []) (fewer : refusals' ≤ refusals)
      (holds : b.Holds data refusals') : Filled data refusals (.delivered [], b)
  | interrupted {b : Buffered σ} {refusals' : Nat} {cause : IoError}
      (kind : cause.kind = .interrupted) (fewer : refusals' < refusals)
      (holds : b.Holds data refusals') : Filled data refusals (.interrupted cause, b)
  | blocked {b : Buffered σ} {refusals' : Nat} {cause : IoError}
      (kind : cause.kind = .wouldBlock) (fewer : refusals' < refusals)
      (holds : b.Holds data refusals') : Filled data refusals (.failed cause, b)

namespace Holds

theorem refill (holds : b.Holds data refusals) {size : Nat} (asks : b.capacity ≤ size) :
    Filled data refusals (b.refill size) := by
  obtain ⟨source, capacity, buffer⟩ := b
  obtain ⟨later, rfl, serves, room⟩ := holds
  dsimp only at serves room asks
  rw [Buffered.refill]
  dsimp only
  split
  · next empty =>
    subst empty
    have answers := serves.read size
    generalize Source.read source size = answer at answers ⊢
    cases answers with
    | piece some fits fewer next =>
      refine .some some rfl fewer ⟨_, rfl, next, room.imp_right ?_⟩
      intro ends
      exact (List.append_eq_nil_iff.1 ends).2
    | nothing none fewer next =>
      have ends : later = [] := by
        rcases room with room | ends
        · exact none.resolve_left (by omega)
        · exact ends
      exact .ended ends fewer ⟨_, rfl, next, room⟩
    | interrupted kind fewer next => exact .interrupted kind fewer ⟨_, rfl, next, room⟩
    | blocked kind fewer next => exact .blocked kind fewer ⟨_, rfl, next, room⟩
  · next nonempty =>
    exact .some nonempty rfl (Nat.le_refl _) ⟨_, rfl, serves, room⟩

theorem fillBuffer (holds : b.Holds data refusals) : Filled data refusals b.fillBuffer :=
  holds.refill (Nat.le_refl _)

theorem mono {refusals' : Nat} (holds : b.Holds data refusals') (fewer : refusals' ≤ refusals) :
    b.Holds data refusals := by
  obtain ⟨later, split, serves, room⟩ := holds
  exact ⟨later, split, serves.mono fewer, room⟩

/-- What is in the buffer comes first. -/
theorem buffer_isPrefix (holds : b.Holds data refusals) : b.buffer <+: data := by
  obtain ⟨later, rfl, -⟩ := holds
  exact List.prefix_append _ _

end Holds

/-! ## One byte at a time -/

/-- The next byte of the data, or why there is none. Interruptions have been dealt with. -/
inductive Fetched (data : Bytes) (refusals : Nat) : ByteResult × Buffered σ → Prop
  | byte {c : UInt8} {rest : Bytes} {b : Buffered σ} {refusals' : Nat} (first : data = c :: rest)
      (fewer : refusals' ≤ refusals) (holds : b.Holds rest refusals') :
      Fetched data refusals (.byte c, b)
  | ended {b : Buffered σ} (ends : data = []) : Fetched data refusals (.ended, b)
  | blocked {b : Buffered σ} {refusals' : Nat} {cause : IoError}
      (kind : cause.kind = .wouldBlock) (fewer : refusals' < refusals)
      (holds : b.Holds data refusals') : Fetched data refusals (.failed cause, b)

theorem Fetched.mono {refusals' : Nat} {result : ByteResult × Buffered σ}
    (fetched : Fetched data refusals' result) (fewer : refusals' ≤ refusals) :
    Fetched data refusals result := by
  cases fetched with
  | byte first fewer' holds => exact .byte first (Nat.le_trans fewer' fewer) holds
  | ended ends => exact .ended ends
  | blocked kind fewer' holds => exact .blocked kind (Nat.lt_of_lt_of_le fewer' fewer) holds

theorem Holds.nextByte (holds : b.Holds data refusals) (want : Nat) :
    Fetched data refusals (b.nextByte want) := by
  have asks := Nat.le_max_right want b.capacity
  fun_induction Buffered.nextByte b want generalizing refusals with
  | case1 b b' filled =>
    have result := holds.refill asks
    rw [filled] at result
    cases result with
    | some nonempty => exact absurd rfl nonempty
    | ended ends fewer holds => exact .ended ends
  | case2 b c bytes b' filled =>
    have result := holds.refill asks
    rw [filled] at result
    cases result with
    | some nonempty buffer fewer holds =>
      obtain ⟨later, rfl, serves, room⟩ := holds
      have first : b'.buffer ++ later = c :: (bytes ++ later) := by rw [buffer, List.cons_append]
      refine .byte first fewer ⟨later, ?_, serves, room⟩
      rw [consume, buffer, List.drop_one, List.tail_cons]
  | case3 b cause b' filled ih =>
    have result := holds.refill asks
    rw [filled] at result
    cases result with
    | interrupted kind fewer holds =>
      exact (ih holds (Nat.le_max_right _ _)).mono (Nat.le_of_lt fewer)
  | case4 b cause b' filled =>
    have result := holds.refill asks
    rw [filled] at result
    cases result with
    | blocked kind fewer holds => exact .blocked kind fewer holds
  | case5 b b' filled =>
    have result := holds.refill asks
    rw [filled] at result
    cases result

end Buffered

/-! ## Parsers -/

namespace Parser

variable {τ ε α : Type}

/-- What a parser makes of a whole input. -/
inductive Reading (τ ε α : Type)
  /-- It has decided, and this is left. -/
  | done (value : α) (rest : List τ)
  | defect (defect : ε)
  /-- The input is over too early. -/
  | short

/-- What the parser makes of the whole input. -/
def reading : Parser τ ε α → List τ → Reading τ ε α
  | done value, rest => .done value rest
  | fail defect, _ => .defect defect
  | refuse defect, _ => .defect defect
  | need _ _, [] => .short
  | need _ next, symbol :: rest => (next symbol).reading rest

/-- What is read is the front of the input. -/
theorem reading_eq_done_iff {p : Parser τ ε α} {input rest : List τ} {value : α} :
    p.reading input = .done value rest ↔ ∃ front, input = front ++ rest ∧ p.Reads front value := by
  constructor
  · intro result
    induction p generalizing input with
    | done =>
      cases result
      exact ⟨[], rfl, .done value⟩
    | fail | refuse => cases result
    | need want next ih =>
      cases input with
      | nil => cases result
      | cons symbol input =>
        obtain ⟨front, rfl, reads⟩ := ih symbol result
        exact ⟨symbol :: front, rfl, .need reads⟩
  · rintro ⟨front, rfl, reads⟩
    induction reads with
    | done value => rfl
    | need _ ih => exact ih

end Parser

namespace Buffered

variable {σ ε α : Type} [Source σ] {data : Bytes} {refusals : Nat}

/-- A parser that has been run on a buffer in front of `data`, and the parser and the buffer to go
    on with. -/
inductive Parsed (p : Parser UInt8 ε α) (data : Bytes) (refusals : Nat) :
    ParseResult ε α × Parser UInt8 ε α × Buffered σ → Prop
  | done {value : α} {rest : Bytes} {p' : Parser UInt8 ε α} {b : Buffered σ} {refusals' : Nat}
      (whole : p.reading data = .done value rest) (fewer : refusals' ≤ refusals)
      (holds : b.Holds rest refusals') : Parsed p data refusals (.done value, p', b)
  | defect {defect : ε} {p' : Parser UInt8 ε α} {b : Buffered σ}
      (whole : p.reading data = .defect defect) : Parsed p data refusals (.defect defect, p', b)
  | ended {p' : Parser UInt8 ε α} {b : Buffered σ} (whole : p.reading data = .short) :
      Parsed p data refusals (.ended, p', b)
  | blocked {rest : Bytes} {cause : IoError} {p' : Parser UInt8 ε α} {b : Buffered σ}
      {refusals' : Nat} (kind : cause.kind = .wouldBlock) (fewer : refusals' < refusals)
      (holds : b.Holds rest refusals') (whole : p.reading data = p'.reading rest) :
      Parsed p data refusals (.failed cause, p', b)

theorem Holds.parse {b : Buffered σ} (holds : b.Holds data refusals) (p : Parser UInt8 ε α) :
    Parsed p data refusals (b.parse p) := by
  induction p generalizing b data refusals with
  | done value => exact .done rfl (Nat.le_refl _) holds
  | fail defect => exact .defect rfl
  | refuse defect => exact .defect rfl
  | need want next ih =>
    have fetched := holds.nextByte want
    rw [Buffered.parse]
    generalize b.nextByte want = fetch at fetched ⊢
    cases fetched with
    | @byte c rest b' refusals' first fewer holds' =>
      subst first
      dsimp only
      split
      · next defect refused =>
        have refuses : next c = .refuse defect := by
          cases hp : next c <;> simp_all [Parser.refusal?]
        exact .defect (by rw [Parser.reading, refuses, Parser.reading])
      · have parsed := ih c holds'
        generalize b'.parse (next c) = result at parsed ⊢
        cases parsed with
        | done whole fewer' holds => exact .done whole (Nat.le_trans fewer' fewer) holds
        | defect whole => exact .defect whole
        | ended whole => exact .ended whole
        | blocked kind fewer' holds whole =>
          exact .blocked kind (Nat.lt_of_lt_of_le fewer' fewer) holds whole
    | ended ends =>
      subst ends
      exact .ended rfl
    | blocked kind fewer holds => exact .blocked kind fewer holds rfl

end Buffered

end ParallelGzip
