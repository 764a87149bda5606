import ParallelGzip.Bytes
import ParallelGzip.Deflate.Block

set_option autoImplicit false

/-! # Inflating: from compressed data to bytes

An inflater takes input as it comes and delivers output as there is room. It goes on as long as it
can: it stops for lack of room only when the next byte of output is known, and for lack of input
only when all of it has been taken. The output so far is kept as `history`, into which matches
reach back; `run` appends to it and does nothing else to it. -/

namespace ParallelGzip

namespace Deflate

/-- What an inflater is about to do. -/
inductive Mode
  /-- Read bits. -/
  | reading (next : Bool → Parser Bool Defect Event)
  /-- Deliver a literal. -/
  | literal (value : UInt8) (codes : Codes) (final : Bool)
  /-- Repeat `more + 1` bytes from `distance` back. -/
  | copying (more distance : Nat) (codes : Codes) (final : Bool)
  /-- Pass on `more + 1` bytes of a stored block. -/
  | storing (more : Nat) (final : Bool)
  /-- The last block is over. -/
  | finished
  /-- The data is not a compressed stream. -/
  | corrupt (defect : Defect)

namespace Mode

/-- Go on with the next symbol of a block. -/
def symbols (codes : Codes) (final : Bool) : Mode := reading (readSymbol codes final)

/-- Go on behind a block. -/
def afterBlock (final : Bool) : Mode := if final then finished else reading readHeader

/-- Repeat `n` bytes. -/
def copy (n distance : Nat) (codes : Codes) (final : Bool) : Mode :=
  match n with
  | 0 => symbols codes final
  | more + 1 => copying more distance codes final

/-- Pass on `n` stored bytes. -/
def store (n : Nat) (final : Bool) : Mode :=
  match n with
  | 0 => afterBlock final
  | more + 1 => storing more final

/-- Bytes that will be delivered before another bit is read. -/
def pending : Mode → Nat
  | literal _ _ _ => 1
  | copying more _ _ _ => more + 1
  | _ => 0

end Mode

/-- An inflater. -/
structure Inflater where
  mode : Mode
  /-- Bits of the current byte that have not been read yet. -/
  held : List Bool
  /-- All output so far. -/
  history : Array UInt8

/-- Why an inflater stopped. -/
inductive Stop
  /-- All input is taken and more is needed. -/
  | hungry
  /-- A byte is ready for which there is no room. -/
  | full
  | finished
  | corrupt
  deriving DecidableEq, Repr

/-- The bits of a byte, lowest first. -/
def bitsOfByte (b : UInt8) : List Bool :=
  [b &&& 1 != 0, b &&& 2 != 0, b &&& 4 != 0, b &&& 8 != 0, b &&& 16 != 0, b &&& 32 != 0,
    b &&& 64 != 0, b &&& 128 != 0]

@[simp] theorem length_bitsOfByte (b : UInt8) : (bitsOfByte b).length = 8 := rfl

namespace Inflater

/-- An inflater at the start of a stream, with `history` to reach back into. -/
def start (history : Array UInt8) : Inflater := ⟨.reading readHeader, [], history⟩

/-- Take up what a unit says, given the bits that remain of the current byte: the mode to go on in
    and the bits to go on with. -/
def accept (held : List Bool) : Event → Mode × List Bool
  | .storedHeader final => (.reading (readStoredLengths final), [])
  | .storedBytes length final => (.store length final, held)
  | .codedHeader codes final => (.symbols codes final, held)
  | .literal value codes final => (.literal value codes final, held)
  | .copy length distance codes final => (.copy length.val distance codes final, held)
  | .endOfBlock final => (.afterBlock final, held)

/-- Take up what a parser has come to. -/
def follow (held : List Bool) : Parser Bool Defect Event → Mode × List Bool
  | .done event => accept held event
  | .fail defect => (.corrupt defect, held)
  | .refuse defect => (.corrupt defect, held)
  | .need _ next => (.reading next, held)

theorem length_follow_le (held : List Bool) (p : Parser Bool Defect Event) :
    (follow held p).2.length ≤ held.length := by
  unfold follow accept
  split <;> try split
  all_goals simp

/-- Inflate as far as the input and the room for output allow. What is left of the input is
    returned. -/
def run (mode : Mode) (held : List Bool) (history : Array UInt8) (input : Bytes) (room : Nat) :
    Stop × Inflater × Bytes :=
  match mode with
  | .finished => (.finished, ⟨.finished, [], history⟩, input)
  | .corrupt defect => (.corrupt, ⟨.corrupt defect, held, history⟩, input)
  | .reading next =>
    match held with
    | bit :: held =>
      match _h : follow held (next bit) with
      | (mode, held) => run mode held history input room
    | [] =>
      -- a byte is taken from the input only when a bit of it is needed
      match input with
      | [] => (.hungry, ⟨.reading next, [], history⟩, [])
      | b :: input => run (.reading next) (bitsOfByte b) history input room
  | .literal value codes final =>
    match room with
    | 0 => (.full, ⟨.literal value codes final, held, history⟩, input)
    | room + 1 => run (.symbols codes final) held (history.push value) input room
  | .copying more distance codes final =>
    match room with
    | 0 => (.full, ⟨.copying more distance codes final, held, history⟩, input)
    | room + 1 =>
      if h : 0 < distance ∧ distance ≤ history.size then
        have : history.size - distance < history.size := by omega
        run (.copy more distance codes final) held
          (history.push history[history.size - distance]) input room
      else (.corrupt, ⟨.corrupt .tooFar, held, history⟩, input)
  | .storing more final =>
    match room with
    | 0 => (.full, ⟨.storing more final, held, history⟩, input)
    | room + 1 =>
      match input with
      | [] => (.hungry, ⟨.storing more final, held, history⟩, [])
      | b :: input => run (.store more final) held (history.push b) input room
termination_by 9 * input.length + held.length + room
decreasing_by
  · next held' =>
    have := length_follow_le held' (next bit)
    rw [_h] at this
    simp only [List.length_cons] at this ⊢
    omega
  · simp only [length_bitsOfByte, List.length_cons, List.length_nil]
    omega
  · omega
  · omega
  · simp only [List.length_cons]
    omega

/-! ## What a run leaves -/

/-- Bounds the output still to come from what has been taken in: every bit read may stand for a
    longest match. -/
def supplyOf (mode : Mode) (held : List Bool) : Nat :=
  (maxMatch + 1) * held.length + mode.pending

/-- Bounds the output still to come from what an inflater has taken in. -/
def supply (z : Inflater) : Nat := supplyOf z.mode z.held

/-- Bounds the output that one byte of input may stand for. -/
def bytesPerByte : Nat := (maxMatch + 1) * 9

theorem pending_follow_le (held : List Bool) (p : Parser Bool Defect Event) :
    (follow held p).1.pending ≤ maxMatch := by
  unfold follow accept
  split
  · split
    · simp [Mode.pending]
    · next length final =>
      cases length with
      | zero =>
        simp only [Mode.store, Mode.afterBlock]
        split <;> simp [Mode.pending]
      | succ n => simp [Mode.store, Mode.pending]
    · simp [Mode.symbols, Mode.pending]
    · simp [Mode.pending, maxMatch]
    · next length _ _ _ =>
      have := length.isLt
      rcases hl : length.val with - | n
      · simp [Mode.copy, Mode.symbols, Mode.pending]
      · simp only [Mode.copy, Mode.pending]
        omega
    · simp only [Mode.afterBlock]
      split <;> simp [Mode.pending]
  · simp [Mode.pending]
  · simp [Mode.pending]
  · simp [Mode.pending]

/-- Output comes out of the supply. -/
theorem supply_run (mode : Mode) (held : List Bool) (history : Array UInt8) (input : Bytes)
    (room : Nat) :
    (run mode held history input room).2.1.history.size +
        (run mode held history input room).2.1.supply +
        bytesPerByte * (run mode held history input room).2.2.length ≤
      history.size + supplyOf mode held + bytesPerByte * input.length := by
  fun_induction run mode held history input room with
  | case1 => simp [supply, supplyOf, Mode.pending]
  | case2 => simp [supply]
  | case3 history input room next bit held mode' held' h ih =>
    have hl := length_follow_le held (next bit)
    have hp := pending_follow_le held (next bit)
    rw [h] at hl hp
    refine Nat.le_trans ih ?_
    simp only [supplyOf, Mode.pending, List.length_cons, maxMatch, bytesPerByte] at hl hp ⊢
    omega
  | case4 => simp [supply, supplyOf]
  | case5 history room next b input ih =>
    refine Nat.le_trans ih ?_
    simp only [supplyOf, List.length_cons, length_bitsOfByte, List.length_nil,
      maxMatch, bytesPerByte]
    omega
  | case6 => simp [supply]
  | case7 held history input value codes final room ih =>
    refine Nat.le_trans ih ?_
    simp only [supplyOf, Mode.pending, Mode.symbols, Array.size_push]
    omega
  | case8 => simp [supply]
  | case9 held history input more distance codes final room h hlt ih =>
    refine Nat.le_trans ih ?_
    have : (Mode.copy more distance codes final).pending ≤ more := by
      cases more <;> simp [Mode.copy, Mode.symbols, Mode.pending]
    simp only [supplyOf, Array.size_push]
    simp only [Mode.pending] at this ⊢
    omega
  | case10 =>
    simp only [supply, supplyOf, Mode.pending]
    omega
  | case11 => simp [supply]
  | case12 => simp [supply]
  | case13 held history more final room b input ih =>
    refine Nat.le_trans ih ?_
    have : (Mode.store more final).pending = 0 := by
      cases more
      · simp only [Mode.store, Mode.afterBlock]
        split <;> simp [Mode.pending]
      · simp [Mode.store, Mode.pending]
    simp only [supplyOf, this, Array.size_push, List.length_cons, maxMatch, bytesPerByte]
    omega

/-- An inflater that wants more input has taken all there was. -/
theorem rest_eq_nil_of_hungry (mode : Mode) (held : List Bool) (history : Array UInt8)
    (input : Bytes) (room : Nat) (h : (run mode held history input room).1 = .hungry) :
    (run mode held history input room).2.2 = [] := by
  fun_induction run mode held history input room with
  | case3 _ _ _ _ _ _ _ _ _ ih => exact ih h
  | case5 _ _ _ _ _ ih => exact ih h
  | case7 _ _ _ _ _ _ _ ih => exact ih h
  | case9 _ _ _ _ _ _ _ _ _ _ ih => exact ih h
  | case13 _ _ _ _ _ _ _ ih => exact ih h
  | _ => first | rfl | simp at h

/-- A run only appends to the history. -/
theorem size_history_le (mode : Mode) (held : List Bool) (history : Array UInt8) (input : Bytes)
    (room : Nat) : history.size ≤ (run mode held history input room).2.1.history.size := by
  fun_induction run mode held history input room with
  | case3 _ _ _ _ _ _ _ _ _ ih => exact ih
  | case5 _ _ _ _ _ ih => exact ih
  | case7 _ _ _ _ _ _ _ ih | case9 _ _ _ _ _ _ _ _ _ _ ih | case13 _ _ _ _ _ _ _ ih =>
    rw [Array.size_push] at ih
    omega
  | _ => exact Nat.le_refl _

/-- A run takes its input from the front. -/
theorem length_rest_le (mode : Mode) (held : List Bool) (history : Array UInt8) (input : Bytes)
    (room : Nat) : (run mode held history input room).2.2.length ≤ input.length := by
  fun_induction run mode held history input room with
  | case3 _ _ _ _ _ _ _ _ _ ih => exact ih
  | case5 _ _ _ _ _ ih => exact Nat.le_succ_of_le ih
  | case7 _ _ _ _ _ _ _ ih => exact ih
  | case9 _ _ _ _ _ _ _ _ _ _ ih => exact ih
  | case13 _ _ _ _ _ _ _ ih => exact Nat.le_succ_of_le ih
  | _ => simp

/-- Add to a run the output that it has put behind the first `size` bytes of the history. -/
@[noinline] def withOutput (size : Nat) :
    Stop × Inflater × Bytes → Stop × Bytes × Inflater × Bytes
  | (stop, z, rest) => (stop, (z.history.extract size).toList, z, rest)

/-- Inflate as far as the input and the room for output allow. The result is why it stopped, the
    output, the inflater to go on with, and what is left of the input. -/
def inflate (z : Inflater) (input : Bytes) (room : Nat) : Stop × Bytes × Inflater × Bytes :=
  match z with
  | ⟨mode, held, history⟩ => withOutput history.size (run mode held history input room)

/-- An inflater that wants more input has taken all there was. -/
theorem rest_eq_nil_of_inflate_hungry {z z' : Inflater} {input output rest : Bytes} {room : Nat}
    (h : z.inflate input room = (.hungry, output, z', rest)) : rest = [] := by
  obtain ⟨mode, held, history⟩ := z
  have hr := rest_eq_nil_of_hungry mode held history input room
  simp only [inflate, withOutput, Prod.mk.injEq] at h
  obtain ⟨hs, -, -, rfl⟩ := h
  exact hr hs

/-- An inflater takes its input from the front. -/
theorem length_rest_le_of_inflate {z z' : Inflater} {input output rest : Bytes} {room : Nat}
    {stop : Stop} (h : z.inflate input room = (stop, output, z', rest)) :
    rest.length ≤ input.length := by
  obtain ⟨mode, held, history⟩ := z
  have hr := length_rest_le mode held history input room
  simp only [inflate, withOutput, Prod.mk.injEq] at h
  obtain ⟨-, -, -, rfl⟩ := h
  exact hr

/-- Output comes out of the supply of the inflater and of its input. -/
theorem supply_inflate_le {z z' : Inflater} {input output rest : Bytes} {room : Nat} {stop : Stop}
    (h : z.inflate input room = (stop, output, z', rest)) :
    output.length + z'.supply + bytesPerByte * rest.length ≤
      z.supply + bytesPerByte * input.length := by
  obtain ⟨mode, held, history⟩ := z
  have hs := supply_run mode held history input room
  have hh := size_history_le mode held history input room
  rcases hr : run mode held history input room with ⟨stop', next, rest'⟩
  rw [hr] at hs hh
  simp only [inflate, hr, withOutput, Prod.mk.injEq] at h
  obtain ⟨rfl, rfl, rfl, rfl⟩ := h
  simp only [supply, Array.length_toList, Array.size_extract] at hs hh ⊢
  omega

end Inflater

end Deflate

end ParallelGzip
