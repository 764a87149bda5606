import ParallelGzip.Proofs.Deflate.Inflate

set_option autoImplicit false

/-! # Inflating all there is

`drain` is what an inflater makes of a whole input when room is no concern. An inflater that gets
its input in pieces and its room in portions comes to the same: `drain_of_inflate` is one portion of
one piece. -/

namespace ParallelGzip

namespace Deflate

namespace Inflater

/-! ## The input may come in pieces -/

/-- A run that has stopped for lack of input goes on when there is more, with the room up to the
    same limit; the input behind the point where a run has stopped for another reason is left
    alone. -/
theorem run_append (mode : Mode) (held : List Bool) (history : Array UInt8) (first second : Bytes)
    (room : Nat) :
    run mode held history (first ++ second) room =
      match run mode held history first room with
      | (.hungry, z, _) =>
        run z.mode z.held z.history second (history.size + room - z.history.size)
      | (stop, z, rest) => (stop, z, rest ++ second) := by
  -- a byte of output takes from the room what it adds to the history
  have limit : ∀ size room : Nat, size + 1 + room = size + (room + 1) := by omega
  fun_induction run mode held history first room with
  | case1 => rw [run]
  | case2 => rw [run]
  | case3 history input room next bit held mode' held' hfollow ih =>
    rw [run, hfollow]
    exact ih
  | case4 =>
    dsimp only
    rw [List.nil_append, Nat.add_sub_cancel_left]
  | case5 history room next b input ih => rw [List.cons_append, run, ih]
  | case6 => rw [run]
  | case7 held history input value codes final room ih =>
    rw [run, ih, Array.size_push, limit]
  | case8 => rw [run]
  | case9 held history input more distance codes final room near hlt ih =>
    rw [run, dif_pos near, ih, Array.size_push, limit]
  | case10 held history input more distance codes final room far => rw [run, dif_neg far]
  | case11 => rw [run]
  | case12 held history more final room =>
    dsimp only
    rw [List.nil_append, Nat.add_sub_cancel_left]
  | case13 held history more final room b input ih =>
    rw [List.cons_append, run, ih, Array.size_push, limit]

/-! ## The whole input -/

/-- More output than this does not come. -/
def enough (z : Inflater) (input : Bytes) : Nat := z.supply + bytesPerByte * input.length + 1

/-- What an inflater makes of a whole input. -/
def drain (z : Inflater) (input : Bytes) : Stop × Inflater × Bytes :=
  run z.mode z.held z.history input (z.enough input)

theorem length_drain_le (z : Inflater) (input : Bytes) :
    (z.drain input).2.2.length ≤ input.length :=
  length_rest_le z.mode z.held z.history input (z.enough input)

theorem run_ne_full {z : Inflater} {input : Bytes} {room : Nat} (large : z.enough input ≤ room) :
    (run z.mode z.held z.history input room).1 ≠ .full := by
  intro full
  have size := size_history_of_full full
  have bound := supply_run z.mode z.held z.history input room
  rw [enough, supply] at large
  omega

/-- A run that has not stopped for lack of room has come as far as there is input. -/
theorem drain_of_run {z z' : Inflater} {input rest : Bytes} {room : Nat} {stop : Stop}
    (result : run z.mode z.held z.history input room = (stop, z', rest)) (ne : stop ≠ .full) :
    z.drain input = (stop, z', rest) := by
  have large := run_add_of_ne_full result ne (z.enough input)
  rcases whole : z.drain input with ⟨stop', z'', rest'⟩
  have ne' : stop' ≠ .full := by
    have bound := run_ne_full (Nat.le_refl (z.enough input))
    rw [drain] at whole
    rwa [whole] at bound
  have large' := run_add_of_ne_full whole ne' room
  rw [Nat.add_comm] at large'
  exact large'.symm.trans large

/-- A run that has stopped for lack of room has made a part of the way. -/
theorem drain_of_full {z z' : Inflater} {input rest : Bytes} {room : Nat}
    (full : run z.mode z.held z.history input room = (.full, z', rest)) :
    z.drain input = z'.drain rest := by
  have large := run_add_of_full full (z'.enough rest)
  have ne := run_ne_full (Nat.le_refl (z'.enough rest))
  rcases whole : z'.drain rest with ⟨stop, z'', rest'⟩
  rw [drain] at whole
  rw [whole] at large ne
  exact drain_of_run large ne

theorem drain_append (z : Inflater) (first second : Bytes) :
    z.drain (first ++ second) =
      match z.drain first with
      | (.hungry, z', _) => z'.drain second
      | (stop, z', rest) => (stop, z', rest ++ second) := by
  have more : z.enough first ≤ z.enough (first ++ second) := by
    rw [enough, enough, List.length_append, Nat.mul_add]
    omega
  have whole := run_append z.mode z.held z.history first second (z.enough (first ++ second))
  have part := run_ne_full more
  have ne := run_ne_full (Nat.le_refl (z.enough (first ++ second)))
  rcases hfirst : run z.mode z.held z.history first (z.enough (first ++ second)) with
    ⟨stop, z', rest⟩
  rw [hfirst] at whole part
  rw [drain_of_run hfirst part, drain, whole]
  cases stop with
  | full => exact absurd rfl part
  | finished | corrupt => rfl
  | hungry =>
    dsimp only at whole ⊢
    rw [whole] at ne
    exact (drain_of_run rfl ne).symm

/-! ## Where a run has stopped -/

/-- What is not ready for output or for input stays as it is. -/
theorem drain_of_stopped {mode : Mode} {held : List Bool} {history : Array UInt8}
    {input rest : Bytes} {room : Nat} {z : Inflater} {stop : Stop}
    (result : run mode held history input room = (stop, z, rest)) (ne : stop ≠ .full) :
    z.drain rest = (stop, z, rest) := by
  fun_induction run mode held history input room with
  | case3 _ _ _ _ _ _ _ _ _ ih => exact ih result
  | case5 _ _ _ _ _ ih => exact ih result
  | case7 _ _ _ _ _ _ _ ih => exact ih result
  | case9 _ _ _ _ _ _ _ _ _ _ ih => exact ih result
  | case13 _ _ _ _ _ _ _ ih => exact ih result
  | case6 | case8 | case11 =>
    cases result
    exact absurd rfl ne
  | case1 | case2 | case4 | case10 | case12 =>
    cases result
    rw [drain, enough, run]

/-- An inflater that has come to the end, or to damage, does not look at what follows. -/
theorem drain_of_final {z : Inflater} {stop : Stop} {rest : Bytes}
    (stopped : z.drain rest = (stop, z, rest)) (final : stop = .finished ∨ stop = .corrupt)
    (later : Bytes) : z.drain (rest ++ later) = (stop, z, rest ++ later) := by
  rw [drain_append, stopped]
  rcases final with rfl | rfl <;> rfl

/-! ## Portions -/

section Portions

variable {z z' : Inflater} {slice output rest : Bytes} {room : Nat} {stop : Stop}

theorem run_of_inflate (inflated : z.inflate slice room = (stop, output, z', rest)) :
    run z.mode z.held z.history slice room = (stop, z', rest) := by
  rcases result : run z.mode z.held z.history slice room with ⟨stop', z'', rest'⟩
  rw [inflate, result, withOutput] at inflated
  cases inflated
  rfl

/-- The output is what has been appended to the history. -/
theorem history_of_inflate (inflated : z.inflate slice room = (stop, output, z', rest)) :
    z'.history.toList = z.history.toList ++ output := by
  have result := run_of_inflate inflated
  obtain ⟨chunk, appended⟩ := history_isPrefix z.mode z.held z.history slice room
  rw [result] at appended
  rw [inflate_of_run result appended.symm] at inflated
  cases inflated
  exact appended.symm

/-- A byte is put out where one is ready and there is room. -/
theorem output_ne_nil_of_full (inflated : z.inflate slice room = (.full, output, z', rest))
    (pos : 0 < room) : output ≠ [] := by
  have result := run_of_inflate inflated
  have size := size_history_of_full (congrArg Prod.fst result)
  have appended := congrArg List.length (history_of_inflate inflated)
  rw [result] at size
  simp only [List.length_append, Array.length_toList] at appended
  rintro rfl
  dsimp only [List.length_nil] at size appended
  omega

/-- What stops without lack of room has come as far as the piece goes. -/
theorem drain_slice_of_inflate (inflated : z.inflate slice room = (stop, output, z', rest))
    (ne : stop ≠ .full) : z.drain slice = (stop, z', rest) :=
  drain_of_run (run_of_inflate inflated) ne

/-- A portion of the output of a piece of the input leaves the rest to be done. -/
theorem drain_of_inflate (inflated : z.inflate slice room = (stop, output, z', rest))
    (later : Bytes) : z.drain (slice ++ later) = z'.drain (rest ++ later) := by
  have result := run_of_inflate inflated
  by_cases full : stop = .full
  · subst full
    have whole := run_append z.mode z.held z.history slice later room
    rw [result] at whole
    exact drain_of_full whole
  · have stopped := drain_of_stopped result full
    rw [drain_append, drain_append, drain_slice_of_inflate inflated full, stopped]

end Portions

end Inflater

end Deflate

end ParallelGzip
