import ParallelGzip.Stream.Parse
import ParallelGzip.Proofs.Stream.Serves

set_option autoImplicit false

/-! # Calm sources: sources that never panic

What is true of a source and stays true of it whatever it is asked (`Source.Closed`) is still true
when a buffer has been filled from it or a parser has been run. That a source does not panic, now
and later (`Source.Calm`), is such a thing. -/

namespace ParallelGzip

variable {σ : Type} [Source σ] {good : σ → Prop} {b b' : Buffered σ} {result : ReadResult}

/-! ## What stays true -/

/-- What is true of a source stays true of it. -/
def Source.Closed (good : σ → Prop) : Prop := ∀ s n, good s → good (Source.read s n).2

namespace Buffered

theorem kept_refill (closed : Source.Closed good) (kept : good b.source) {size : Nat}
    (filled : b.refill size = (result, b')) : good b'.source := by
  have next := closed b.source size kept
  rw [refill] at filled
  split at filled
  · split at filled
    all_goals
      next answer =>
        cases filled
        rwa [answer] at next
  · cases filled
    exact kept

theorem kept_fillBuffer (closed : Source.Closed good) (kept : good b.source)
    (filled : b.fillBuffer = (result, b')) : good b'.source :=
  kept_refill closed kept filled

theorem kept_nextByte (closed : Source.Closed good) (kept : good b.source) (want : Nat) :
    good (b.nextByte want).2.source := by
  fun_induction Buffered.nextByte b want with
  | case3 b cause b' filled ih => exact ih (kept_refill closed kept filled)
  | case1 b b' filled | case2 b c bytes b' filled | case4 b cause b' filled | case5 b b' filled =>
    have kept' := kept_refill closed kept filled
    exact kept'

theorem kept_parse {ε α : Type} (closed : Source.Closed good) (kept : good b.source)
    (p : Parser UInt8 ε α) : good (b.parse p).2.2.source := by
  induction p generalizing b with
  | done value | fail defect | refuse defect => exact kept
  | need want next ih =>
    have kept' := kept_nextByte closed kept want
    rw [parse]
    generalize b.nextByte want = fetched at kept' ⊢
    obtain ⟨result, b'⟩ := fetched
    cases result with
    | byte c =>
      dsimp only
      split
      · exact kept'
      · exact ih c kept'
    | ended | failed cause | panicked => exact kept'

end Buffered

/-! ## Sources that do not panic -/

namespace Source

/-- The source does not panic, however often it is asked. -/
def Calm (s : σ) : Prop :=
  ∃ keeps : σ → Prop,
    (∀ s n, keeps s → (Source.read s n).1 ≠ .panicked ∧ keeps (Source.read s n).2) ∧ keeps s

theorem calm_closed : Closed (Calm (σ := σ)) := by
  rintro s n ⟨keeps, closed, kept⟩
  exact ⟨keeps, closed, (closed s n kept).2⟩

theorem Calm.read {s : σ} (calm : Calm s) (n : Nat) : (Source.read s n).1 ≠ .panicked := by
  obtain ⟨keeps, closed, kept⟩ := calm
  exact (closed s n kept).1

end Source

theorem Scheduled.calm (s : Scheduled) : Source.Calm s := by
  refine ⟨fun _ => True, ?_, trivial⟩
  rintro ⟨data, turns⟩ n -
  refine ⟨?_, trivial⟩
  rcases turns with _ | ⟨turn, turns⟩
  · rintro ⟨⟩
  · cases turn <;> rintro ⟨⟩

namespace Buffered

theorem refill_ne_panicked (calm : Source.Calm b.source) (size : Nat) :
    (b.refill size).1 ≠ .panicked := by
  have answer := calm.read size
  rw [refill]
  split
  · split
    · rintro ⟨⟩
    · next answered =>
      rw [answered] at answer
      exact answer
  · rintro ⟨⟩

theorem nextByte_ne_panicked (calm : Source.Calm b.source) (want : Nat) :
    (b.nextByte want).1 ≠ .panicked := by
  fun_induction Buffered.nextByte b want with
  | case3 b cause b' filled ih => exact ih (kept_refill Source.calm_closed calm filled)
  | case5 b b' filled =>
    exact absurd (congrArg Prod.fst filled) (refill_ne_panicked calm _)
  | case1 | case2 | case4 => rintro ⟨⟩

theorem parse_ne_panicked {ε α : Type} (calm : Source.Calm b.source) (p : Parser UInt8 ε α) :
    (b.parse p).1 ≠ .panicked := by
  induction p generalizing b with
  | done value | fail defect | refuse defect => rintro ⟨⟩
  | need want next ih =>
    have answer := nextByte_ne_panicked calm want
    have calm' := kept_nextByte Source.calm_closed calm want
    rw [parse]
    generalize b.nextByte want = fetched at answer calm' ⊢
    obtain ⟨result, b'⟩ := fetched
    cases result with
    | byte c =>
      dsimp only
      split
      · rintro ⟨⟩
      · exact ih c calm'
    | ended | failed cause => rintro ⟨⟩
    | panicked => exact absurd rfl answer

end Buffered

end ParallelGzip
