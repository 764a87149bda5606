import ParallelGzip.Proofs.Deflate.Bits

set_option autoImplicit false

/-! # Inflating step by step

What an inflater does is put together from what it does with single units of its input: `Leads` says
that it gets from one point of the data to another. Since a run that stops for lack of room can be
taken up again (`run_add`), the room can be left out of all this. -/

namespace ParallelGzip

open ParallelGzip.Parser (Reads)

namespace Deflate

namespace Inflater

/-! ## Room does not matter -/

/-- More room makes a run go on from where it stopped for lack of room, and changes nothing if that
    is not why it stopped. -/
theorem run_add (mode : Mode) (held : List Bool) (history : Array UInt8) (input : Bytes)
    (room more : Nat) :
    run mode held history input (room + more) =
      match run mode held history input room with
      | (.full, z, rest) => run z.mode z.held z.history rest more
      | stopped => stopped := by
  fun_induction run mode held history input room with
  | case1 => rw [run]
  | case2 => rw [run]
  | case3 history input room next bit held mode' held' hfollow ih => rw [run, hfollow, ← ih]
  | case4 => rw [run]
  | case5 history room next b input ih => rw [run, ← ih]
  | case6 => rw [Nat.zero_add]
  | case7 held history input value codes final room ih => rw [Nat.succ_add, run, ← ih]
  | case8 => rw [Nat.zero_add]
  | case9 held history input more' distance codes final room near hlt ih =>
    rw [Nat.succ_add, run, dif_pos near, ← ih]
  | case10 held history input more' distance codes final room far =>
    rw [Nat.succ_add, run, dif_neg far]
  | case11 => rw [Nat.zero_add]
  | case12 held history more' final room => rw [Nat.succ_add, run]
  | case13 held history more' final room b input ih => rw [Nat.succ_add, run, ← ih]

theorem run_add_of_full {mode : Mode} {held : List Bool} {history : Array UInt8}
    {input rest : Bytes} {room : Nat} {z : Inflater}
    (full : run mode held history input room = (.full, z, rest)) (more : Nat) :
    run mode held history input (room + more) = run z.mode z.held z.history rest more := by
  rw [run_add, full]

theorem run_add_of_ne_full {mode : Mode} {held : List Bool} {history : Array UInt8}
    {input rest : Bytes} {room : Nat} {z : Inflater} {stop : Stop}
    (stopped : run mode held history input room = (stop, z, rest)) (ne : stop ≠ .full)
    (more : Nat) : run mode held history input (room + more) = (stop, z, rest) := by
  rw [run_add, stopped]
  split
  · next full => exact absurd (congrArg Prod.fst full) ne
  · rfl

/-- A run that stops for lack of room has used all of it. -/
theorem size_history_of_full {mode : Mode} {held : List Bool} {history : Array UInt8}
    {input : Bytes} {room : Nat} (full : (run mode held history input room).1 = .full) :
    (run mode held history input room).2.1.history.size = history.size + room := by
  fun_induction run mode held history input room with
  | case3 _ _ _ _ _ _ _ _ _ ih => exact ih full
  | case5 _ _ _ _ _ ih => exact ih full
  | case6 | case8 | case11 => rfl
  | case7 _ _ _ _ _ _ _ ih | case9 _ _ _ _ _ _ _ _ _ _ ih | case13 _ _ _ _ _ _ _ ih =>
    rw [ih full, Array.size_push]
    omega
  | case1 | case2 | case4 | case10 | case12 => cases full

/-- A run appends to the history. -/
theorem history_isPrefix (mode : Mode) (held : List Bool) (history : Array UInt8) (input : Bytes)
    (room : Nat) : history.toList <+: (run mode held history input room).2.1.history.toList := by
  fun_induction run mode held history input room with
  | case3 _ _ _ _ _ _ _ _ _ ih => exact ih
  | case5 _ _ _ _ _ ih => exact ih
  | case7 _ _ _ _ _ _ _ ih | case9 _ _ _ _ _ _ _ _ _ _ ih | case13 _ _ _ _ _ _ _ ih =>
    refine List.IsPrefix.trans ?_ ih
    rw [Array.toList_push]
    exact List.prefix_append _ _
  | _ => exact List.prefix_rfl

/-- What a run appends to the history is the output. -/
theorem inflate_of_run {z z' : Inflater} {data chunk rest : Bytes} {n : Nat}
    {stop : Stop}
    (hrun : run z.mode z.held z.history data n = (stop, z', rest))
    (appended : z'.history.toList = z.history.toList ++ chunk) :
    z.inflate data n = (stop, chunk, z', rest) := by
  have output : (z'.history.extract z.history.size).toList = chunk := by
    have count := congrArg List.length appended
    simp only [List.length_append, Array.length_toList] at count
    rw [Array.toList_extract, List.extract_eq_take_drop, appended, ← z.history.length_toList,
      List.drop_left, List.take_of_length_le]
    rw [z.history.length_toList]
    omega
  rw [inflate, hrun, withOutput, output]

/-! ## Bits ahead -/

/-- An inflater with these bits of the current byte and this input has `bits` before it, and behind
    them the bytes `rest`. -/
def Ahead (held : List Bool) (input : Bytes) (bits : List Bool) (rest : Bytes) : Prop :=
  held.length < 8 ∧ ∃ bytes, input = bytes ++ rest ∧ held ++ bitsOfBytes bytes = bits

theorem ahead_bytes (bytes rest : Bytes) : Ahead [] (bytes ++ rest) (bitsOfBytes bytes) rest :=
  ⟨by decide, bytes, rfl, rfl⟩

theorem ahead_all (bytes : Bytes) : Ahead [] bytes (bitsOfBytes bytes) [] :=
  ⟨by decide, bytes, (List.append_nil bytes).symm, rfl⟩

/-- At the end of the bits there are less than eight of them, so that none of them is left in
    bytes. -/
theorem Ahead.input_eq {held bits : List Bool} {input rest : Bytes}
    (ahead : Ahead held input bits rest) (few : bits.length < 8) : held = bits ∧ input = rest := by
  obtain ⟨-, bytes, rfl, rfl⟩ := ahead
  have none : bytes = [] := by
    rw [List.length_append, length_bitsOfBytes] at few
    exact List.length_eq_zero_iff.1 (by omega)
  rw [none]
  exact ⟨(List.append_nil held).symm, rfl⟩

/-- Reading a bit. -/
theorem Ahead.next {held bits : List Bool} {input rest : Bytes} {bit : Bool}
    (ahead : Ahead held input (bit :: bits) rest) :
    ∃ held' input', Ahead held' input' bits rest ∧ ∀ next history room,
      run (.reading next) held history input room =
        run (follow held' (next bit)).1 (follow held' (next bit)).2 history input' room := by
  obtain ⟨short, bytes, rfl, hbits⟩ := ahead
  cases held with
  | cons first held =>
    obtain ⟨rfl, rfl⟩ := List.cons.inj hbits
    refine ⟨held, _, ⟨Nat.lt_of_succ_lt short, bytes, rfl, rfl⟩, ?_⟩
    intro next history room
    rw [run]
  | nil =>
    -- the byte that the bit is from has to be taken up first
    cases bytes with
    | nil => cases hbits
    | cons b bytes =>
      obtain ⟨first, more, hfirst⟩ : ∃ first more, bitsOfByte b = first :: more := ⟨_, _, rfl⟩
      have few := length_bitsOfByte b
      rw [hfirst, List.length_cons] at few
      rw [List.nil_append, bitsOfBytes_cons, hfirst] at hbits
      obtain ⟨rfl, rfl⟩ := List.cons.inj hbits
      refine ⟨more, bytes ++ rest, ⟨by omega, bytes, rfl, rfl⟩, ?_⟩
      intro next history room
      rw [List.cons_append, run, hfirst, run]

/-- Reading what a unit says. -/
theorem Ahead.reads {held bits more : List Bool} {input rest : Bytes} {want : Nat}
    {next : Bool → Parser Bool Defect Event} {event : Event}
    (reads : (Parser.need want next).Reads bits event)
    (ahead : Ahead held input (bits ++ more) rest) :
    ∃ held' input', Ahead held' input' more rest ∧ ∀ history room,
      run (.reading next) held history input room =
        run (accept held' event).1 (accept held' event).2 history input' room := by
  induction bits generalizing held input want next with
  | nil => cases reads
  | cons bit bits ih =>
    obtain ⟨held', input', ahead', hnext⟩ := ahead.next
    cases reads with
    | need later =>
      cases hp : next bit with
      | done value =>
        rw [hp] at later
        cases later
        refine ⟨held', input', ahead', ?_⟩
        intro history room
        rw [hnext, hp]
        rfl
      | fail defect =>
        rw [hp] at later
        cases later
      | refuse defect =>
        rw [hp] at later
        cases later
      | need want next' =>
        rw [hp] at later
        obtain ⟨held'', input'', ahead'', hrun⟩ := ih later ahead'
        refine ⟨held'', input'', ahead'', ?_⟩
        intro history room
        rw [hnext, hp, ← hrun]
        rfl

/-! ## From point to point -/

/-- Where an inflater is: what it is about to do, its output so far, and what is before it. -/
structure Point where
  mode : Mode
  history : Array UInt8
  bits : List Bool
  rest : Bytes

/-- From the first point the inflater gets to the second and puts out `n` bytes on the way, however
    much room there is. -/
def Leads (p : Point) (n : Nat) (q : Point) : Prop :=
  ∀ held input, Ahead held input p.bits p.rest → ∃ held' input', Ahead held' input' q.bits q.rest ∧
    ∀ room, run p.mode held p.history input (room + n) = run q.mode held' q.history input' room

namespace Leads

variable {p q r : Point} {m n : Nat} {history : Array UInt8} {bits more : List Bool} {rest : Bytes}
  {codes : Codes} {final : Bool}

theorem refl (p : Point) : Leads p 0 p := fun held input ahead => ⟨held, input, ahead, fun _ => rfl⟩

theorem trans (first : Leads p m q) (second : Leads q n r) : Leads p (m + n) r := by
  intro held input ahead
  obtain ⟨held', input', ahead', hfirst⟩ := first held input ahead
  obtain ⟨held'', input'', ahead'', hsecond⟩ := second held' input' ahead'
  refine ⟨held'', input'', ahead'', ?_⟩
  intro room
  rw [Nat.add_comm m n, ← Nat.add_assoc, hfirst, hsecond]

/-- Nothing is put out on the first part of the way. -/
theorem zero_trans (first : Leads p 0 q) (second : Leads q n r) : Leads p n r :=
  Nat.zero_add n ▸ first.trans second

/-- Behind the last bit there are bytes, of which the bits can be read. -/
theorem bytes (mode : Mode) (history : Array UInt8) (data rest : Bytes) :
    Leads ⟨mode, history, [], data ++ rest⟩ 0 ⟨mode, history, bitsOfBytes data, rest⟩ := by
  intro held input ahead
  obtain ⟨rfl, rfl⟩ := ahead.input_eq (Nat.zero_lt_succ 7)
  exact ⟨[], data ++ rest, ahead_bytes data rest, fun _ => rfl⟩

/-- What is said by a unit is taken up. Only in front of the lengths of a stored block are bits
    left out. -/
theorem reads (history : Array UInt8) (more : List Bool) (rest : Bytes) (mode : Mode) {want : Nat}
    {next : Bool → Parser Bool Defect Event} {event : Event}
    (reads : (Parser.need want next).Reads bits event)
    (accepts : ∀ held, accept held event = (mode, held)) :
    Leads ⟨.reading next, history, bits ++ more, rest⟩ 0 ⟨mode, history, more, rest⟩ := by
  intro held input ahead
  obtain ⟨held', input', ahead', hrun⟩ := ahead.reads reads
  refine ⟨held', input', ahead', ?_⟩
  intro room
  rw [Nat.add_zero, hrun, accepts]

/-- The bits up to the end of the byte are left out behind the header of a stored block. -/
theorem storedHeader (history : Array UInt8) (more : List Bool) (rest : Bytes) {want : Nat}
    {next : Bool → Parser Bool Defect Event}
    (reads : (Parser.need want next).Reads bits (.storedHeader final)) (few : more.length < 8) :
    Leads ⟨.reading next, history, bits ++ more, rest⟩ 0
      ⟨.reading (readStoredLengths final), history, [], rest⟩ := by
  intro held input ahead
  obtain ⟨held', input', ahead', hrun⟩ := ahead.reads reads
  obtain ⟨-, rfl⟩ := ahead'.input_eq few
  refine ⟨[], input', ⟨by decide, [], rfl, rfl⟩, ?_⟩
  intro room
  rw [Nat.add_zero, hrun]
  rfl

theorem literal (value : UInt8) :
    Leads ⟨.literal value codes final, history, bits, rest⟩ 1
      ⟨.symbols codes final, history.push value, bits, rest⟩ := by
  intro held input ahead
  refine ⟨held, input, ahead, ?_⟩
  intro room
  rw [run]

theorem run_copying {held : List Bool} {input : Bytes} {k distance room : Nat} {value : UInt8}
    (far : 0 < distance) (near : distance ≤ history.size)
    (source : history[history.size - distance]? = some value) :
    run (.copying k distance codes final) held history input (room + 1) =
      run (.copy k distance codes final) held (history.push value) input room := by
  obtain ⟨_, found⟩ := Array.getElem?_eq_some_iff.1 source
  rw [run, dif_pos ⟨far, near⟩]
  dsimp only
  rw [found]

/-- The bytes of a stored block are passed on. -/
theorem store (data rest : Bytes) :
    Leads ⟨.store data.length final, history, [], data ++ rest⟩ data.length
      ⟨.afterBlock final, history ++ data, [], rest⟩ := by
  induction data generalizing history with
  | nil =>
    rw [Array.appendList_nil]
    exact refl _
  | cons value data ih =>
    intro held input ahead
    obtain ⟨rfl, rfl⟩ := ahead.input_eq (Nat.zero_lt_succ 7)
    obtain ⟨held', input', ahead', hrun⟩ :=
      @ih (history.push value) [] (data ++ rest) ⟨by decide, [], rfl, rfl⟩
    have push : history ++ (value :: data) = history.push value ++ data := by simp
    refine ⟨held', input', ahead', ?_⟩
    intro room
    rw [List.length_cons, ← Nat.add_assoc, List.cons_append, Mode.store, run, hrun, push]

end Leads

end Inflater

open Inflater (Leads)

/-! ## Whole blocks -/

/-- Output that comes in two parts. -/
theorem appendList_append (history : Array UInt8) (first second : Bytes) :
    history ++ (first ++ second) = history ++ first ++ second := Array.toList_inj.1 (by simp)

/-- From a block boundary behind this history, the data brings an inflater to the next block
    boundary and makes it put out these bytes. -/
def Inflates (data : Bytes) (history : Array UInt8) (output : Bytes) : Prop :=
  ∀ rest, Leads ⟨.reading readHeader, history, [], data ++ rest⟩ output.length
    ⟨.reading readHeader, history ++ output, [], rest⟩

namespace Inflates

variable {first second output more : Bytes} {history : Array UInt8}

theorem nil (history : Array UInt8) : Inflates [] history [] := by
  intro rest
  rw [Array.appendList_nil]
  exact .refl _

/-- Blocks can be put one after the other. -/
theorem append (hfirst : Inflates first history output)
    (hsecond : Inflates second (history ++ output) more) :
    Inflates (first ++ second) history (output ++ more) := by
  intro rest
  have together := (hfirst (second ++ rest)).trans (hsecond rest)
  rw [List.length_append, List.append_assoc, appendList_append]
  exact together

end Inflates

end Deflate

end ParallelGzip
