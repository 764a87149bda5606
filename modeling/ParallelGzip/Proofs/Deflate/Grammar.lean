import ParallelGzip.Proofs.Deflate.Drain
import ParallelGzip.Proofs.Deflate.Store

set_option autoImplicit false

/-! # The format of compressed data

Compressed data as the format has it, without a reader: a sequence of blocks, the last of which says
that it is the last, and at most seven bits that fill up the last byte. A block is stored, behind a
byte boundary, or it is a sequence of symbols in the fixed code or in one that it describes. What a
block puts out depends on the output before it, which copies reach back into.

An inflater comes to the end of just these data: `Blocks.leads` is one direction, `blocks_of_run`
the other, and `drain_finished_iff` puts them together. -/

namespace ParallelGzip

open ParallelGzip.Parser (Reads)

namespace Deflate

/-! ## The format -/

/-- What a copy from `distance` back puts out behind a history: one byte after the other, so that
    it may reach into what it has put out itself. -/
inductive Copied (distance : Nat) : Array UInt8 → Bytes → Prop
  | nil (history : Array UInt8) : Copied distance history []
  | cons {history : Array UInt8} {value : UInt8} {more : Bytes} (far : 0 < distance)
      (near : distance ≤ history.size)
      (source : history[history.size - distance]? = some value)
      (next : Copied distance (history.push value) more) : Copied distance history (value :: more)

/-- The symbols of a coded block up to its end, and what they put out behind a history. -/
inductive Symbols (codes : Codes) : Array UInt8 → List Bool → Bytes → Prop
  | endOfBlock {history : Array UInt8} {word : List Bool}
      (symbol : (codes.literals.read .literal).Reads word endSymbol) :
      Symbols codes history word []
  | literal {history : Array UInt8} {word bits : List Bool} {value : UInt8} {output : Bytes}
      (symbol : (codes.literals.read .literal).Reads word value.toNat)
      (next : Symbols codes (history.push value) bits output) :
      Symbols codes history (word ++ bits) (value :: output)
  | copy {history : Array UInt8} {word distanceWord bits : List Bool} {copied output : Bytes}
      {length : Fin 29} {lengthExtra : Fin (Nat.pow 2 (lengthExtras.get length))}
      {distance : Fin 30} {distanceExtra : Fin (Nat.pow 2 (distanceExtras.get distance))}
      (symbol : (codes.literals.read .literal).Reads word (endSymbol + 1 + length.val))
      (distanceSymbol : (codes.distances.read .distance).Reads distanceWord distance.val)
      (count : copied.length = lengthOf length lengthExtra)
      (isCopy : Copied (distanceOf distance distanceExtra) history copied)
      (next : Symbols codes (history ++ copied) bits output) :
      Symbols codes history
        (word ++ numberBits (lengthExtras.get length) lengthExtra ++
          (distanceWord ++ numberBits (distanceExtras.get distance) distanceExtra) ++ bits)
        (copied ++ output)

/-- A block behind so many bits and this history, and what it puts out. -/
inductive Block (final : Bool) (position : Nat) (history : Array UInt8) : List Bool → Bytes → Prop
  /-- From the next byte boundary on, the number of bytes, its complement, and the bytes. -/
  | stored {padding : List Bool} {data : Bytes} (few : padding.length < 8)
      (aligned : 8 ∣ position + 3 + padding.length) (fits : data.length ≤ maxStored) :
      Block final position history
        ([final, false, false] ++ padding ++ bitsOfBytes (Bytes.littleEndian 2 data.length ++
          Bytes.littleEndian 2 (maxStored - data.length) ++ data))
        data
  | fixed {bits : List Bool} {output : Bytes} (symbols : Symbols fixedCodes history bits output) :
      Block final position history ([final, true, false] ++ bits) output
  | dynamic {codes : Codes} {description bits : List Bool} {output : Bytes}
      (describes : readDynamicCodes.Reads description codes)
      (symbols : Symbols codes history bits output) :
      Block final position history ([final, false, true] ++ description ++ bits) output

/-- Blocks up to the last one. -/
inductive Blocks : Nat → Array UInt8 → List Bool → Bytes → Prop
  | last {position : Nat} {history : Array UInt8} {bits : List Bool} {output : Bytes}
      (block : Block true position history bits output) : Blocks position history bits output
  | cons {position : Nat} {history : Array UInt8} {bits bits' : List Bool} {output output' : Bytes}
      (block : Block false position history bits output)
      (next : Blocks (position + bits.length) (history ++ output) bits' output') :
      Blocks position history (bits ++ bits') (output ++ output')

/-- The data is a complete compressed stream, and this is its content. -/
def IsDeflated (data content : Bytes) : Prop :=
  ∃ bits padding, bitsOfBytes data = bits ++ padding ∧ padding.length < 8 ∧
    Blocks 0 #[] bits content

/-! ## Units -/

section Units

variable {codes : Codes} {final : Bool} {bits word : List Bool} {event : Event}

/-- The header of a block. -/
theorem reads_header_iff :
    (Parser.need 1 readHeader).Reads bits event ↔ ∃ final,
      (bits = [final, false, false] ∧ event = .storedHeader final) ∨
      (bits = [final, true, false] ∧ event = .codedHeader fixedCodes final) ∨
      ∃ codes description, bits = [final, false, true] ++ description ∧
        readDynamicCodes.Reads description codes ∧ event = .codedHeader codes final := by
  constructor
  · intro reads
    cases reads with
    | @need _ _ final bits _ reads =>
      obtain ⟨first, second, kind, rfl, before, behind⟩ := Reads.of_bind reads
      obtain rfl := bits_of_reads_readBits before
      refine ⟨final, ?_⟩
      match kind, behind with
      | 0, .done _ => exact .inl ⟨rfl, rfl⟩
      | 1, .done _ => exact .inr (.inl ⟨rfl, rfl⟩)
      | 2, behind =>
        obtain ⟨description, none, codes, rfl, describes, behind⟩ := Reads.of_bind behind
        cases behind
        exact .inr (.inr ⟨codes, description, by rw [List.append_nil]; rfl, describes, rfl⟩)
      | 3, behind => cases behind
  · rintro ⟨final, ⟨rfl, rfl⟩ | ⟨rfl, rfl⟩ | ⟨codes, description, rfl, describes, rfl⟩⟩
    · exact .need ((reads_readBits 2 0 (by decide)).bind_done rfl)
    · exact .need ((reads_readBits 2 1 (by decide)).bind_done rfl)
    · exact .need ((reads_readBits 2 2 (by decide)).bind (describes.bind_done rfl))

/-- The lengths of a stored block. -/
theorem reads_storedLengths_iff :
    (Parser.need 1 (readStoredLengths final)).Reads bits event ↔ ∃ length ≤ maxStored,
      bits = numberBits 16 length ++ numberBits 16 (maxStored - length) ∧
        event = .storedBytes length final := by
  constructor
  · intro reads
    cases reads with
    | @need _ _ bit bits _ reads =>
      obtain ⟨_, _, rest, rfl, first, reads'⟩ := Reads.of_bind reads
      obtain rfl := bits_of_reads_readBits first
      obtain ⟨_, none, complement, rfl, second, decides⟩ := Reads.of_bind reads'
      obtain rfl := bits_of_reads_readBits second
      dsimp only at decides
      split at decides
      · next whole =>
        cases decides
        have limit : maxStored = 65535 := rfl
        have rest' : complement.val = maxStored - (bit.toNat + 2 * rest.val) := by omega
        refine ⟨bit.toNat + 2 * rest.val, by omega, ?_, rfl⟩
        rw [numberBits_succ, List.append_nil, rest']
        rfl
      · cases decides
  · rintro ⟨length, fits, rfl, rfl⟩
    exact reads_storedLengths fits 1 final

/-- The distance of a copy. -/
theorem reads_distance_iff {length : MatchLength} :
    (readDistance length codes final).Reads bits event ↔ ∃ word, ∃ (distance : Fin 30)
      (extra : Fin (Nat.pow 2 (distanceExtras.get distance))),
      (codes.distances.read .distance).Reads word distance.val ∧
      bits = word ++ numberBits (distanceExtras.get distance) extra ∧
      event = .copy length (distanceOf distance extra) codes final := by
  constructor
  · intro reads
    obtain ⟨word, _, symbol, rfl, reads_symbol, reads'⟩ := Reads.of_bind reads
    split at reads'
    · next known =>
      obtain ⟨_, none, extra, rfl, reads_extra, ends⟩ := Reads.of_bind reads'
      obtain rfl := bits_of_reads_readBits reads_extra
      cases ends
      exact ⟨word, ⟨symbol, known⟩, extra, reads_symbol, by rw [List.append_nil], rfl⟩
    · cases reads'
  · rintro ⟨word, distance, extra, reads, rfl, rfl⟩
    refine reads.bind ?_
    rw [dif_pos distance.isLt]
    exact (reads_readBits _ extra.val extra.isLt).bind_done rfl

/-- What a symbol of a coded block calls for. -/
def ofSymbol (codes : Codes) (final : Bool) (symbol : Nat) : Parser Bool Defect Event :=
  if symbol < endSymbol then .done (.literal (UInt8.ofNat symbol) codes final)
  else if symbol = endSymbol then .done (.endOfBlock final)
  else if h : symbol - (endSymbol + 1) < 29 then
    readBits (lengthExtras.get ⟨symbol - (endSymbol + 1), h⟩) >>= fun extra =>
      readDistance (lengthOf ⟨symbol - (endSymbol + 1), h⟩ extra) codes final
  else .fail .literal

theorem readSymbol_eq (codes : Codes) (final : Bool) :
    Parser.need 1 (readSymbol codes final) =
      (codes.literals.read .literal >>= ofSymbol codes final) := rfl

theorem ofSymbol_value (value : UInt8) :
    ofSymbol codes final value.toNat = .done (.literal value codes final) := by
  have small : value.toNat < endSymbol := value.toNat_lt
  rw [ofSymbol, if_pos small, UInt8.ofNat_toNat]

theorem ofSymbol_end : ofSymbol codes final endSymbol = .done (.endOfBlock final) := by
  rw [ofSymbol, if_neg (Nat.lt_irrefl _), if_pos rfl]

theorem ofSymbol_length (length : Fin 29) :
    ofSymbol codes final (endSymbol + 1 + length.val) =
      (readBits (lengthExtras.get length) >>= fun extra =>
        readDistance (lengthOf length extra) codes final) := by
  have notLiteral : ¬endSymbol + 1 + length.val < endSymbol := by omega
  have notEnd : endSymbol + 1 + length.val ≠ endSymbol := by omega
  have known : endSymbol + 1 + length.val - (endSymbol + 1) < 29 := by omega
  have same : (⟨_, known⟩ : Fin 29) = length := Fin.ext (Nat.add_sub_cancel_left ..)
  rw [ofSymbol, if_neg notLiteral, if_neg notEnd, dif_pos known, same]

/-- A symbol is a literal, the end of the block or a length, or it does not exist. -/
theorem ofSymbol_cases (codes : Codes) (final : Bool) (symbol : Nat) :
    symbol = endSymbol ∨ (∃ value : UInt8, symbol = value.toNat) ∨
      (∃ length : Fin 29, symbol = endSymbol + 1 + length.val) ∨
      ofSymbol codes final symbol = .fail .literal := by
  by_cases small : symbol < endSymbol
  · refine .inr (.inl ⟨UInt8.ofNat symbol, ?_⟩)
    rw [UInt8.toNat_ofNat']
    exact (Nat.mod_eq_of_lt small).symm
  by_cases ends : symbol = endSymbol
  · exact .inl ends
  by_cases known : symbol - (endSymbol + 1) < 29
  · exact .inr (.inr (.inl ⟨⟨_, known⟩, by dsimp only; omega⟩))
  · refine .inr (.inr (.inr ?_))
    rw [ofSymbol, if_neg small, if_neg ends, dif_neg known]

/-- A symbol of a coded block. -/
theorem reads_symbol_iff :
    (Parser.need 1 (readSymbol codes final)).Reads bits event ↔
      ((codes.literals.read .literal).Reads bits endSymbol ∧ event = .endOfBlock final) ∨
      (∃ value : UInt8, (codes.literals.read .literal).Reads bits value.toNat ∧
        event = .literal value codes final) ∨
      ∃ word distanceWord, ∃ (length : Fin 29)
        (lengthExtra : Fin (Nat.pow 2 (lengthExtras.get length))) (distance : Fin 30)
        (distanceExtra : Fin (Nat.pow 2 (distanceExtras.get distance))),
        (codes.literals.read .literal).Reads word (endSymbol + 1 + length.val) ∧
        (codes.distances.read .distance).Reads distanceWord distance.val ∧
        bits = word ++ numberBits (lengthExtras.get length) lengthExtra ++
          (distanceWord ++ numberBits (distanceExtras.get distance) distanceExtra) ∧
        event = .copy (lengthOf length lengthExtra) (distanceOf distance distanceExtra) codes
          final := by
  rw [readSymbol_eq]
  constructor
  · intro reads
    obtain ⟨word, _, symbol, rfl, reads_symbol, reads'⟩ := Reads.of_bind reads
    rcases ofSymbol_cases codes final symbol with rfl | ⟨value, rfl⟩ | ⟨length, rfl⟩ | none
    · rw [ofSymbol_end] at reads'
      cases reads'
      rw [List.append_nil]
      exact .inl ⟨reads_symbol, rfl⟩
    · rw [ofSymbol_value] at reads'
      cases reads'
      rw [List.append_nil]
      exact .inr (.inl ⟨value, reads_symbol, rfl⟩)
    · rw [ofSymbol_length] at reads'
      obtain ⟨_, _, lengthExtra, rfl, reads_extra, reads_distance⟩ := Reads.of_bind reads'
      obtain rfl := bits_of_reads_readBits reads_extra
      obtain ⟨distanceWord, distance, distanceExtra, reads_word, rfl, rfl⟩ :=
        reads_distance_iff.1 reads_distance
      exact .inr (.inr ⟨word, distanceWord, length, lengthExtra, distance, distanceExtra,
        reads_symbol, reads_word, (List.append_assoc ..).symm, rfl⟩)
    · rw [none] at reads'
      cases reads'
  · rintro (⟨reads, rfl⟩ | ⟨value, reads, rfl⟩ |
      ⟨word, distanceWord, length, lengthExtra, distance, distanceExtra, reads, readsDistance, rfl,
        rfl⟩)
    · exact reads.bind_done ofSymbol_end
    · exact reads.bind_done (ofSymbol_value value)
    · rw [List.append_assoc]
      refine reads.bind ?_
      rw [ofSymbol_length]
      exact (reads_readBits _ lengthExtra.val lengthExtra.isLt).bind (reads_distance_iff.2
        ⟨distanceWord, distance, distanceExtra, readsDistance, rfl, rfl⟩)

end Units

/-! ## From the format to the inflater -/

open Inflater (Leads Ahead)

section Leads

variable {codes : Codes} {final : Bool} {history : Array UInt8} {bits more : List Bool}
  {output : Bytes}

/-- Where whole bytes follow the bits, they are bytes of the input. -/
theorem Inflater.Ahead.realign {held first behind : List Bool} {input : Bytes}
    (ahead : Ahead held input (first ++ behind) []) (aligned : 8 ∣ behind.length) :
    ∃ bytes, bitsOfBytes bytes = behind ∧ Ahead held input first bytes := by
  obtain ⟨short, bytes, rfl, split⟩ := ahead
  obtain ⟨k, length⟩ := aligned
  have count := congrArg List.length split
  rw [List.length_append, List.length_append, length_bitsOfBytes] at count
  have parts := bitsOfBytes_append (bytes.take (bytes.length - k)) (bytes.drop (bytes.length - k))
  rw [List.take_append_drop] at parts
  rw [parts, ← List.append_assoc] at split
  have size : (bitsOfBytes (bytes.drop (bytes.length - k))).length = behind.length := by
    rw [length_bitsOfBytes, List.length_drop]
    omega
  obtain ⟨front, rear⟩ := List.append_inj' split size
  refine ⟨bytes.drop (bytes.length - k), rear, short, bytes.take (bytes.length - k), ?_, front⟩
  rw [List.append_nil, List.take_append_drop]

theorem Inflater.Ahead.whole {held first : List Bool} {input rest : Bytes}
    (ahead : Ahead held input first rest) :
    Ahead held input (first ++ bitsOfBytes rest) [] := by
  obtain ⟨short, bytes, rfl, rfl⟩ := ahead
  refine ⟨short, bytes ++ rest, (List.append_nil _).symm, ?_⟩
  rw [bitsOfBytes_append, List.append_assoc]

theorem Copied.leads {distance : Nat} {copied : Bytes} (isCopy : Copied distance history copied)
    (codes : Codes) (final : Bool) (bits : List Bool) (rest : Bytes) :
    Leads ⟨.copy copied.length distance codes final, history, bits, rest⟩ copied.length
      ⟨.symbols codes final, history ++ copied, bits, rest⟩ := by
  induction isCopy with
  | nil history =>
    rw [Array.appendList_nil]
    exact .refl _
  | @cons history value copied far near source next ih =>
    intro held input ahead
    obtain ⟨held', input', ahead', goesOn⟩ := ih held input ahead
    have push : history ++ (value :: copied) = history.push value ++ copied := by simp
    refine ⟨held', input', ahead', ?_⟩
    intro room
    rw [push, ← goesOn room]
    exact Leads.run_copying far near source

theorem Symbols.leads (symbols : Symbols codes history bits output) (final : Bool)
    (more : List Bool) (rest : Bytes) :
    Leads ⟨.symbols codes final, history, bits ++ more, rest⟩ output.length
      ⟨.afterBlock final, history ++ output, more, rest⟩ := by
  induction symbols with
  | endOfBlock symbol =>
    rw [Array.appendList_nil]
    exact Leads.reads _ more rest (.afterBlock final) (reads_symbol_iff.2 (.inl ⟨symbol, rfl⟩))
      fun _ => rfl
  | @literal history word bits value output symbol next ih =>
    have push : history ++ (value :: output) = history.push value ++ output := by simp
    have unit := Leads.reads history (bits ++ more) rest (.literal value codes final)
      (reads_symbol_iff.2 (.inr (.inl ⟨value, symbol, rfl⟩))) fun _ => rfl
    rw [List.append_assoc, List.length_cons, Nat.add_comm, push]
    exact unit.zero_trans ((Leads.literal value).trans ih)
  | @copy history word distanceWord bits copied output length lengthExtra distance distanceExtra
      symbol distanceSymbol count isCopy next ih =>
    have unit := Leads.reads history (bits ++ more) rest
      (.copy copied.length (distanceOf distance distanceExtra) codes final)
      (reads_symbol_iff.2 (.inr (.inr ⟨word, distanceWord, length, lengthExtra, distance,
        distanceExtra, symbol, distanceSymbol, rfl, rfl⟩))) fun _ => by rw [count]; rfl
    rw [List.append_assoc, List.length_append, appendList_append]
    exact unit.zero_trans ((isCopy.leads codes final _ rest).trans ih)

theorem Block.leads {position : Nat} (block : Block final position history bits output)
    (aligned : 8 ∣ position + (bits ++ more).length) :
    Leads ⟨.reading readHeader, history, bits ++ more, []⟩ output.length
      ⟨.afterBlock final, history ++ output, more, []⟩ := by
  cases block with
  | fixed symbols =>
    rw [List.append_assoc]
    exact (Leads.reads history _ [] (.symbols fixedCodes final)
      (reads_header_iff.2 ⟨final, .inr (.inl ⟨rfl, rfl⟩)⟩) fun _ => rfl).zero_trans
        (symbols.leads final more [])
  | @dynamic codes description bits _ describes symbols =>
    rw [List.append_assoc]
    exact (Leads.reads history _ [] (.symbols codes final) (reads_header_iff.2
      ⟨final, .inr (.inr ⟨codes, description, rfl, describes, rfl⟩)⟩) fun _ => rfl).zero_trans
        (symbols.leads final more [])
  | @stored padding _ few boundary fits =>
    intro held input ahead
    dsimp only at ahead
    rw [List.append_assoc] at ahead aligned
    have whole : 8 ∣ (bitsOfBytes (Bytes.littleEndian 2 output.length ++
        Bytes.littleEndian 2 (maxStored - output.length) ++ output) ++ more).length := by
      rw [List.length_append, List.length_append, List.length_cons, List.length_cons,
        List.length_cons, List.length_nil] at aligned
      omega
    obtain ⟨bytes, split, ahead⟩ := ahead.realign whole
    obtain ⟨rest, rfl, behind⟩ := exists_of_bitsOfBytes_eq split
    rw [List.append_assoc] at ahead
    have header := Leads.storedHeader history padding (Bytes.littleEndian 2 output.length ++
      Bytes.littleEndian 2 (maxStored - output.length) ++ (output ++ rest))
      (reads_header_iff.2 ⟨final, .inl ⟨rfl, rfl⟩⟩) few
    obtain ⟨held', input', ahead', run⟩ :=
      header.zero_trans (leads_storedLengths output fits history rest final) held input ahead
    have ahead' := ahead'.whole
    rw [List.nil_append, behind] at ahead'
    exact ⟨held', input', ahead', run⟩

theorem Blocks.leads {position : Nat} (blocks : Blocks position history bits output)
    (aligned : 8 ∣ position + (bits ++ more).length) :
    Leads ⟨.reading readHeader, history, bits ++ more, []⟩ output.length
      ⟨.finished, history ++ output, more, []⟩ := by
  induction blocks with
  | last block => exact block.leads aligned
  | @cons position history bits bits' output output' block next ih =>
    rw [List.append_assoc] at aligned ⊢
    rw [List.length_append, appendList_append]
    have later : 8 ∣ position + bits.length + (bits' ++ more).length := by
      rwa [List.length_append, ← Nat.add_assoc] at aligned
    exact (block.leads aligned).trans (ih later)

end Leads

/-- An inflater comes to the end behind a complete compressed stream. -/
theorem IsDeflated.drain {data content : Bytes} (isDeflated : IsDeflated data content)
    (rest : Bytes) :
    (Inflater.start #[]).drain (data ++ rest) =
      (.finished, ⟨.finished, [], content.toArray⟩, rest) := by
  obtain ⟨bits, padding, split, few, blocks⟩ := isDeflated
  have whole : bitsOfBytes (data ++ rest) = bits ++ (padding ++ bitsOfBytes rest) := by
    rw [bitsOfBytes_append, split, List.append_assoc]
  have aligned : 8 ∣ 0 + (bits ++ (padding ++ bitsOfBytes rest)).length := by
    rw [← whole, length_bitsOfBytes]
    omega
  have start := Inflater.ahead_all (data ++ rest)
  rw [whole] at start
  obtain ⟨held, input, ahead, run⟩ := blocks.leads aligned [] (data ++ rest) start
  obtain ⟨bytes, same, ahead⟩ := ahead.realign ⟨rest.length, length_bitsOfBytes rest⟩
  obtain ⟨-, rfl⟩ := ahead.input_eq few
  have output : (#[] : Array UInt8) ++ content = content.toArray := Array.toList_inj.1 (by simp)
  obtain rfl := bitsOfBytes_injective same
  have result : Inflater.run (.reading readHeader) [] #[] (data ++ input) (0 + content.length) =
      (.finished, ⟨.finished, [], content.toArray⟩, input) := by
    refine (run 0).trans ?_
    rw [Inflater.run, output]
  exact Inflater.drain_of_run (z := .start #[]) result (by decide)

/-! ## From the inflater to the format -/

section Runs

open Inflater (run follow accept)

variable {codes : Codes} {final : Bool} {history : Array UInt8} {held ahead : List Bool}
  {input rest : Bytes} {room : Nat} {z : Inflater}

/-- On the way to the end what a unit says is read. -/
theorem reads_of_run {p : Parser Bool Defect Event} (before : Ahead held input ahead [])
    (result : run (follow held p).1 (follow held p).2 history input room = (.finished, z, rest)) :
    ∃ bits more event held' input', ahead = bits ++ more ∧ p.Reads bits event ∧
      Ahead held' input' more [] ∧
      run (accept held' event).1 (accept held' event).2 history input' room =
        (.finished, z, rest) := by
  induction p generalizing held ahead input with
  | done event => exact ⟨[], ahead, event, held, input, rfl, .done event, before, result⟩
  | fail | refuse =>
    rw [follow, run] at result
    cases result
  | need want next ih =>
    rw [follow] at result
    cases ahead with
    | nil =>
      obtain ⟨rfl, rfl⟩ := before.input_eq (Nat.zero_lt_succ 7)
      rw [run] at result
      cases result
    | cons bit ahead =>
      obtain ⟨held', input', before', reads⟩ := before.next
      rw [reads] at result
      obtain ⟨bits, more, event, held'', input'', rfl, unit, before'', result⟩ :=
        ih bit before' result
      exact ⟨bit :: bits, more, event, held'', input'', rfl, .need unit, before'', result⟩

theorem copied_of_run {n distance : Nat}
    (result : run (.copy n distance codes final) held history input room = (.finished, z, rest)) :
    ∃ copied room', copied.length = n ∧ Copied distance history copied ∧
      run (.symbols codes final) held (history ++ copied) input room' = (.finished, z, rest) := by
  induction n generalizing history room with
  | zero => exact ⟨[], room, rfl, .nil history, by rwa [Array.appendList_nil]⟩
  | succ n ih =>
    rw [Mode.copy] at result
    cases room with
    | zero =>
      rw [run] at result
      cases result
    | succ room =>
      rw [run] at result
      split at result
      · next reach =>
        obtain ⟨copied, room', rfl, isCopy, later⟩ := ih result
        have push : ∀ value, history ++ (value :: copied) = history.push value ++ copied := by simp
        exact ⟨_ :: copied, room', rfl, .cons reach.1 reach.2 (Array.getElem?_eq_getElem _) isCopy,
          push _ ▸ later⟩
      · cases result

theorem stored_of_run {n : Nat}
    (result : run (.store n final) held history input room = (.finished, z, rest)) :
    ∃ data input' room', data.length = n ∧ input = data ++ input' ∧
      run (.afterBlock final) held (history ++ data) input' room' = (.finished, z, rest) := by
  induction n generalizing history input room with
  | zero => exact ⟨[], input, room, rfl, rfl, by rwa [Array.appendList_nil]⟩
  | succ n ih =>
    rw [Mode.store] at result
    cases room with
    | zero =>
      rw [run] at result
      cases result
    | succ room =>
      cases input with
      | nil =>
        rw [run] at result
        cases result
      | cons b input =>
        rw [run] at result
        obtain ⟨data, input', room', rfl, rfl, later⟩ := ih result
        have push : history ++ (b :: data) = history.push b ++ data := by simp
        exact ⟨b :: data, input', room', rfl, rfl, push ▸ later⟩

/-- A unit takes at least one bit. -/
theorem pos_of_reads {next : Bool → Parser Bool Defect Event} {bits : List Bool} {event : Event}
    (reads : (Parser.need 1 next).Reads bits event) : 0 < bits.length := by
  cases reads with
  | need => exact Nat.succ_pos _

theorem symbols_of_run (before : Ahead held input ahead [])
    (result : run (.symbols codes final) held history input room = (.finished, z, rest)) :
    ∃ bits more output held' input' room', ahead = bits ++ more ∧
      Symbols codes history bits output ∧ Ahead held' input' more [] ∧
      run (.afterBlock final) held' (history ++ output) input' room' = (.finished, z, rest) := by
  induction length : ahead.length using Nat.strongRecOn
    generalizing held history input ahead room with
  | ind size ih =>
    obtain ⟨bits, more, event, held', input', rfl, unit, before', result⟩ :=
      reads_of_run (p := .need 1 (readSymbol codes final)) before result
    have fewer : more.length < size := by
      have some := pos_of_reads unit
      rw [List.length_append] at length
      omega
    rcases reads_symbol_iff.1 unit with ⟨symbol, rfl⟩ | ⟨value, symbol, rfl⟩ |
      ⟨word, distanceWord, length, lengthExtra, distance, distanceExtra, symbol, distanceSymbol,
        rfl, rfl⟩
    · exact ⟨bits, more, [], held', input', room, rfl, .endOfBlock symbol, before', by
        rwa [Array.appendList_nil]⟩
    · rw [accept] at result
      cases room with
      | zero =>
        rw [run] at result
        cases result
      | succ room =>
        rw [run] at result
        obtain ⟨bits', more, output, held'', input'', room', rfl, symbols, before'', result⟩ :=
          ih _ fewer before' result rfl
        have push : history ++ (value :: output) = history.push value ++ output := by simp
        exact ⟨bits ++ bits', more, value :: output, held'', input'', room',
          (List.append_assoc ..).symm, .literal symbol symbols, before'', push ▸ result⟩
    · rw [accept] at result
      obtain ⟨copied, room', count, isCopy, result⟩ := copied_of_run result
      obtain ⟨bits', more, output, held'', input'', room'', rfl, symbols, before'', result⟩ :=
        ih _ fewer before' result rfl
      exact ⟨_ ++ bits', more, copied ++ output, held'', input'', room'',
        (List.append_assoc ..).symm, .copy symbol distanceSymbol count isCopy symbols, before'',
        appendList_append history copied output ▸ result⟩

/-- At the boundary of a byte nothing of it is left. -/
theorem Inflater.Ahead.held_eq_nil (before : Ahead held input ahead [])
    (aligned : 8 ∣ ahead.length) : held = [] := by
  obtain ⟨bytes, -, before⟩ :=
    Inflater.Ahead.realign (List.nil_append ahead ▸ before : Ahead held input ([] ++ ahead) [])
      aligned
  exact (before.input_eq (Nat.zero_lt_succ 7)).1

theorem storedBlock_of_run {position : Nat} (before : Ahead held input ahead [])
    (aligned : 8 ∣ position + 3 + ahead.length)
    (result : run (.reading (readStoredLengths final)) [] history input room =
      (.finished, z, rest)) :
    ∃ bits more output held' input' room', [final, false, false] ++ ahead = bits ++ more ∧
      Block final position history bits output ∧ 0 < bits.length ∧ Ahead held' input' more [] ∧
      run (.afterBlock final) held' (history ++ output) input' room' = (.finished, z, rest) := by
  obtain ⟨short, bytes, rfl, rfl⟩ := before
  rw [List.append_nil] at result
  obtain ⟨bits, more, event, held', input', split, unit, before, result⟩ :=
    reads_of_run (p := .need 1 (readStoredLengths final)) (Inflater.ahead_all bytes) result
  obtain ⟨length, fits, rfl, rfl⟩ := reads_storedLengths_iff.1 unit
  have sizes := congrArg List.length split
  rw [List.length_append, List.length_append, length_numberBits, length_numberBits,
    length_bitsOfBytes] at sizes
  obtain rfl := before.held_eq_nil (by omega)
  rw [accept] at result
  obtain ⟨data, input'', room', rfl, rfl, later⟩ := stored_of_run result
  obtain ⟨-, bytes', same, split'⟩ := before
  rw [List.append_nil] at same
  subst same
  rw [List.length_append, length_bitsOfBytes] at aligned
  refine ⟨_, bitsOfBytes input'', data, [], input'', room', ?_,
    .stored short (by omega) fits, by simp, Inflater.ahead_all input'', later⟩
  rw [split, ← split']
  simp only [bitsOfBytes_append, bitsOfBytes_littleEndian, List.append_assoc, List.nil_append]

theorem block_of_run {position : Nat} (before : Ahead held input ahead [])
    (aligned : 8 ∣ position + ahead.length)
    (result : run (.reading readHeader) held history input room = (.finished, z, rest)) :
    ∃ final bits more output held' input' room', ahead = bits ++ more ∧
      Block final position history bits output ∧ 0 < bits.length ∧ Ahead held' input' more [] ∧
      run (.afterBlock final) held' (history ++ output) input' room' = (.finished, z, rest) := by
  obtain ⟨bits, more, event, held', input', rfl, unit, before', result⟩ :=
    reads_of_run (p := .need 1 readHeader) before result
  obtain ⟨final, ⟨rfl, rfl⟩ | ⟨rfl, rfl⟩ | ⟨codes, description, rfl, describes, rfl⟩⟩ :=
    reads_header_iff.1 unit
  · refine ⟨final, storedBlock_of_run before' ?_ result⟩
    rwa [List.length_append, ← Nat.add_assoc] at aligned
  · obtain ⟨bits, more, output, held'', input'', room', rfl, symbols, before'', result⟩ :=
      symbols_of_run before' result
    exact ⟨final, _, more, output, held'', input'', room', (List.append_assoc ..).symm,
      .fixed symbols, by simp, before'', result⟩
  · obtain ⟨bits, more, output, held'', input'', room', rfl, symbols, before'', result⟩ :=
      symbols_of_run before' result
    exact ⟨final, _, more, output, held'', input'', room', (List.append_assoc ..).symm,
      .dynamic describes symbols, by simp, before'', result⟩

theorem blocks_of_run {position : Nat} (before : Ahead held input ahead [])
    (aligned : 8 ∣ position + ahead.length)
    (result : run (.reading readHeader) held history input room = (.finished, z, rest)) :
    ∃ bits padding output, ahead = bits ++ (padding ++ bitsOfBytes rest) ∧ padding.length < 8 ∧
      Blocks position history bits output ∧ z = ⟨.finished, [], history ++ output⟩ := by
  induction length : ahead.length using Nat.strongRecOn
    generalizing position held history input ahead room with
  | ind size ih =>
    obtain ⟨final, bits, more, output, held', input', room', rfl, block, some, before', result⟩ :=
      block_of_run before aligned result
    rw [List.length_append] at length
    cases final with
    | true =>
      obtain ⟨few, bytes, rfl, rfl⟩ := before'
      rw [Mode.afterBlock, if_pos rfl, run, List.append_nil] at result
      cases result
      exact ⟨bits, held', output, rfl, few, .last block, rfl⟩
    | false =>
      have later : 8 ∣ position + bits.length + more.length := by
        rwa [List.length_append, ← Nat.add_assoc] at aligned
      obtain ⟨bits', padding, output', rfl, few, blocks, rfl⟩ :=
        ih more.length (by omega) before' later result rfl
      exact ⟨bits ++ bits', padding, output ++ output', (List.append_assoc ..).symm, few,
        .cons block blocks, by rw [appendList_append]⟩

end Runs

/-- An inflater comes to the end of complete compressed streams, and of nothing else. -/
theorem drain_finished_iff {input rest : Bytes} {z : Inflater} :
    (Inflater.start #[]).drain input = (.finished, z, rest) ↔ ∃ data content,
      input = data ++ rest ∧ IsDeflated data content ∧ z = ⟨.finished, [], content.toArray⟩ := by
  constructor
  · intro result
    have aligned : 8 ∣ 0 + (bitsOfBytes input).length := by
      rw [length_bitsOfBytes]
      omega
    obtain ⟨bits, padding, content, split, few, blocks, rfl⟩ :=
      blocks_of_run (Inflater.ahead_all input) aligned result
    rw [← List.append_assoc] at split
    obtain ⟨data, rfl, whole⟩ := exists_of_bitsOfBytes_eq_append split
    have output : (#[] : Array UInt8) ++ content = content.toArray := Array.toList_inj.1 (by simp)
    exact ⟨data, content, rfl, ⟨bits, padding, whole, few, blocks⟩,
      congrArg (Inflater.mk .finished []) output⟩
  · rintro ⟨data, content, rfl, isDeflated, rfl⟩
    exact isDeflated.drain rest

end Deflate

end ParallelGzip
