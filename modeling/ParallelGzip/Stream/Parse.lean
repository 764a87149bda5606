import ParallelGzip.Stream.Buffered
import ParallelGzip.Stream.Parser

set_option autoImplicit false

/-! # Parsing from a buffered source

A parser of bytes is run on a buffered source until it has decided or the source stops. In every
case the parser as it is then comes back with the result, so the run can be taken up again. -/

namespace ParallelGzip

/-- What running a parser on a source came to. -/
inductive ParseResult (ε α : Type) : Type
  | done (value : α)
  | defect (defect : ε)
  /-- The source ended while more was needed. -/
  | ended
  | failed (cause : IoError)
  | panicked

/-- The defect for which a parser has refused its last symbol. -/
def Parser.refusal? {τ ε α : Type} : Parser τ ε α → Option ε
  | refuse defect => some defect
  | _ => none

namespace Buffered

variable {σ ε α : Type} [Source σ]

/-- Run a parser. Behind a refused byte the parser stands where it stood before it. -/
def parse : Parser UInt8 ε α → Buffered σ → ParseResult ε α × Parser UInt8 ε α × Buffered σ
  | .done value, b => (.done value, .done value, b)
  | .fail defect, b => (.defect defect, .fail defect, b)
  | .refuse defect, b => (.defect defect, .refuse defect, b)
  | .need want next, b =>
    match b.nextByte want with
    | (.byte c, b) =>
      match (next c).refusal? with
      | some defect => (.defect defect, .need want next, b)
      | none => parse (next c) b
    | (.ended, b) => (.ended, .need want next, b)
    | (.failed cause, b) => (.failed cause, .need want next, b)
    | (.panicked, b) => (.panicked, .need want next, b)

/-- Parsing takes from the supply. -/
theorem supply_parse (p : Parser UInt8 ε α) (b : Buffered σ) :
    (b.parse p).2.2.supply ≤ b.supply := by
  induction p generalizing b with
  | need want next ih =>
    have hb := supply_nextByte b want
    rw [parse]
    split
    · next c b' h =>
      rw [h] at hb
      split
      · exact hb.1
      · exact Nat.le_trans (ih c b') hb.1
    all_goals
      next h =>
        rw [h] at hb
        exact hb.1
  | _ => exact Nat.le_refl _

/-- A parser that needs a symbol decides only after taking one. -/
theorem supply_parse_lt (b : Buffered σ) {want : Nat} {next : UInt8 → Parser UInt8 ε α} {value : α}
    (h : (b.parse (.need want next)).1 = .done value) :
    (b.parse (.need want next)).2.2.supply < b.supply := by
  have hb := supply_nextByte b want
  rw [parse] at h ⊢
  rcases hbyte : b.nextByte want with ⟨result, b'⟩
  rw [hbyte] at h hb
  cases result with
  | byte c =>
    have hlt := hb.2 c rfl
    cases hr : (next c).refusal? with
    | some defect => simp [hr] at h
    | none =>
      simp only [hr]
      exact Nat.lt_of_le_of_lt (supply_parse _ _) hlt
  | ended | failed _ | panicked => cases h

/-- A parser that a failing source has stopped needs a symbol. -/
theorem need_of_parse_failed {p p' : Parser UInt8 ε α} {b b' : Buffered σ} {cause : IoError}
    (h : b.parse p = (.failed cause, p', b')) : ∃ want next, p' = .need want next := by
  induction p generalizing b with
  | need want next ih =>
    rw [parse] at h
    split at h
    · next c b₁ _ =>
      split at h
      · cases h
      · exact ih c h
    · cases h
    · cases h
      exact ⟨want, next, rfl⟩
    · cases h
  | _ => cases h

end Buffered

end ParallelGzip
