set_option autoImplicit false

/-! # Parsers that can pause

A parser is a value that has either decided or needs the next symbol of its input. Stopping between
two symbols is nothing but keeping the value, so how the input is cut into pieces cannot matter.
Everything that reads a format in this library is such a parser: over bytes for the framing of a
member, over bits for compressed data. -/

namespace ParallelGzip

/-- A parser of symbols `τ` with failures `ε` and result `α`. -/
inductive Parser (τ ε α : Type) : Type
  /-- All symbols have been read. -/
  | done (value : α)
  /-- The symbols read so far cannot be accepted. -/
  | fail (defect : ε)
  /-- The last symbol cannot be accepted; the parser that read it may be tried on the next one. -/
  | refuse (defect : ε)
  /-- Another symbol is needed. `want` tells how many are wanted before the next decision; it
      only sizes requests. -/
  | need (want : Nat) (next : τ → Parser τ ε α)

namespace Parser

variable {τ ε α β : Type}

/-- Run one parser, then the one made from its result. -/
def andThen : Parser τ ε α → (α → Parser τ ε β) → Parser τ ε β
  | done value, f => f value
  | fail defect, _ => fail defect
  | refuse defect, _ => refuse defect
  | need want next, f => need want fun symbol => (next symbol).andThen f

instance : Monad (Parser τ ε) where
  pure := done
  bind := andThen

/-- The next `n` symbols. -/
def symbols : (n : Nat) → Parser τ ε (List τ)
  | 0 => done []
  | n + 1 => need (n + 1) fun first => do
    let rest ← symbols n
    return first :: rest

end Parser

end ParallelGzip
