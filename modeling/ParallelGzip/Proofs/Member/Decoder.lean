import ParallelGzip.Member.Decoder
import ParallelGzip.Proofs.Deflate.Encode

set_option autoImplicit false

/-! # Decoding a written member

The header and the trailer that are written are read, and so is the block that ends the compressed
data. Inside the body a request delivers some of what is left of the payload, however many bytes it
asks for; `Completes` says what is left, and `readBody_of_completes` is one request. -/

namespace ParallelGzip

open Deflate (Inflater Inflates)

/-! ## What surrounds the compressed data -/

/-- Whatever compression a header announces, it is read. -/
theorem reads_headerWithMark (mark : UInt8) :
    MemberHeader.read.Reads (Frame.headerWithMark mark) () :=
  (Parser.reads_symbols (Frame.headerWithMark mark)).bind_done rfl

theorem reads_header (level : Nat) : MemberHeader.read.Reads (Frame.header level) () :=
  reads_headerWithMark _

theorem reads_trailer (crc : UInt32) (size : Nat) :
    (MemberTrailer.read crc size).Reads (Frame.trailer crc size) () := by
  have length : Frame.trailerLength = (Frame.trailer crc size).length := by simp
  rw [MemberTrailer.read, length]
  refine (Parser.reads_symbols _).bind_done ?_
  rw [if_pos rfl]

theorem Deflate.bitsOfBytes_emptyFinalBlock :
    bitsOfBytes Frame.emptyFinalBlock =
      [true, true, false] ++ Words.fixed.literal endSymbol ++ List.replicate 6 false := by
  have word : fixedCodes.literals.word? endSymbol = some (List.replicate 7 false) := by
    decide +kernel
  rw [Words.literal_fixed (by decide), Option.some.injEq] at word
  rw [word]
  decide

/-- The block that ends the compressed data says nothing else. -/
theorem leads_emptyFinalBlock (history : Array UInt8) (rest : Bytes) :
    Inflater.Leads ⟨.reading Deflate.readHeader, history, [], Frame.emptyFinalBlock ++ rest⟩ 0
      ⟨.finished, history, List.replicate 6 false, rest⟩ := by
  have bytes :=
    Inflater.Leads.bytes (.reading Deflate.readHeader) history Frame.emptyFinalBlock rest
  rw [Deflate.bitsOfBytes_emptyFinalBlock, List.append_assoc] at bytes
  have opens : (Parser.need 1 Deflate.readHeader).Reads [true, true, false]
      (.codedHeader Deflate.fixedCodes true) :=
    .need ((Deflate.reads_readBits 2 1 (by decide)).bind_done rfl)
  have header := Inflater.Leads.reads history
    (Deflate.Words.fixed.literal Deflate.endSymbol ++ List.replicate 6 false) rest
    (.symbols Deflate.fixedCodes true) opens fun _ => rfl
  have known : Deflate.Words.fixed.HasAll Deflate.fixedCodes [] :=
    Deflate.Words.hasAll_fixed fun token none => by cases none
  have ends := Inflater.Leads.reads history (List.replicate 6 false) rest (.afterBlock true)
    (Deflate.reads_endOfBlock known.1 1 true) fun _ => rfl
  exact bytes.zero_trans (header.zero_trans ends)

/-! ## Inside the body -/

/-- An inflater before this data has this payload still to put out, and then come the trailer of the
    whole payload and what is behind the member. -/
def Deflate.Inflater.Completes (z : Inflater) (data payload behind : Bytes) : Prop :=
  ∃ room final, Inflater.run z.mode z.held z.history data room =
      (.finished, ⟨.finished, [], final⟩,
        Frame.trailer (crc32 final.toList 0) final.size ++ behind) ∧
    final.toList = z.history.toList ++ payload

/-- An inflater behind the header of a member. -/
theorem completes_start {blocks payload : Bytes} (inflates : Inflates blocks #[] payload)
    (behind : Bytes) :
    (Inflater.start #[]).Completes
      (blocks ++ (Frame.emptyFinalBlock
        ++ (Frame.trailer (crc32 payload 0) payload.length ++ behind))) payload behind := by
  have whole := (inflates _).trans (leads_emptyFinalBlock _
    (Frame.trailer (crc32 payload 0) payload.length ++ behind))
  obtain ⟨held, input, ahead, hrun⟩ := whole [] _ ⟨by decide, [], rfl, rfl⟩
  obtain ⟨-, rfl⟩ := ahead.input_eq (by rw [List.length_replicate]; decide)
  refine ⟨0 + (payload.length + 0), (#[] : Array UInt8) ++ payload, ?_, ?_⟩
  · refine (hrun 0).trans ?_
    rw [Inflater.run]
    simp
  · simp [Inflater.start]

theorem Buffered.fillBuffer_of_ne_nil {σ : Type} [Source σ] {b : Buffered σ}
    (nonempty : b.buffer ≠ []) : b.fillBuffer = (.delivered b.buffer, b) := by
  rw [fillBuffer, refill, if_neg nonempty]

namespace Deflate.Inflater.Completes

variable {z : Inflater} {data payload behind : Bytes}

/-- The trailer at least is still to come. -/
theorem ne_nil (completes : z.Completes data payload behind) : data ≠ [] := by
  obtain ⟨room, final, hrun, -⟩ := completes
  have less := Inflater.length_rest_le z.mode z.held z.history data room
  rw [hrun, List.length_append, Frame.length_trailer, Frame.trailerLength] at less
  intro none
  rw [none, List.length_nil] at less
  omega

/-- What a run with any room comes to: either it is full, and the inflater it leaves completes the
    rest, or it comes to the end. -/
theorem run (completes : z.Completes data payload behind) (n : Nat) :
    (∃ z' rest chunk later, Inflater.run z.mode z.held z.history data n = (.full, z', rest) ∧
      z'.history.toList = z.history.toList ++ chunk ∧ chunk.length = n ∧
      payload = chunk ++ later ∧ z'.Completes rest later behind) ∨
    ∃ final, Inflater.run z.mode z.held z.history data n =
        (.finished, ⟨.finished, [], final⟩,
          Frame.trailer (crc32 final.toList 0) final.size ++ behind) ∧
      final.toList = z.history.toList ++ payload := by
  obtain ⟨room, final, hrun, hfinal⟩ := completes
  -- a run with more room than it takes to the end can be cut at any room
  have enough := Inflater.run_add_of_ne_full hrun (fun full => by cases full) n
  rw [Nat.add_comm] at enough
  have begins := Inflater.history_isPrefix z.mode z.held z.history data n
  rcases hn : Inflater.run z.mode z.held z.history data n with ⟨stop, z', rest⟩
  by_cases full : stop = .full
  · subst full
    have size := Inflater.size_history_of_full (congrArg Prod.fst hn)
    have resumed := (Inflater.run_add_of_full hn room).symm.trans enough
    have goes := Inflater.history_isPrefix z'.mode z'.held z'.history rest room
    rw [hn] at begins size
    rw [resumed] at goes
    obtain ⟨chunk, hchunk⟩ := begins
    obtain ⟨later, hlater⟩ := goes
    dsimp only at hchunk hlater size
    refine .inl ⟨z', rest, chunk, later, rfl, hchunk.symm, ?_, ?_, room, final, resumed,
      hlater.symm⟩
    · have count := congrArg List.length hchunk
      simp only [List.length_append, Array.length_toList] at count
      omega
    · rw [hfinal, ← hchunk, List.append_assoc] at hlater
      exact (List.append_cancel_left hlater).symm
  · have stopped := (Inflater.run_add_of_ne_full hn full room).symm.trans enough
    exact .inr ⟨final, stopped, hfinal⟩

end Deflate.Inflater.Completes

/-! ## Requests -/

section Requests

variable {σ : Type} [Source σ] {b : Buffered σ} {n : Nat}

theorem readTrailer_of_reads {p : Parser UInt8 MemberDefect Unit} {trailer behind : Bytes}
    (reads : p.Reads trailer ()) (buffer : b.buffer = trailer ++ behind) :
    readTrailer p b = .ended { b with buffer := behind } := by
  rw [readTrailer, Buffered.parse_of_reads reads buffer]

theorem readBody_of_inflate {z z' : Inflater} {stop : Deflate.Stop} {chunk rest : Bytes}
    (filled : b.fillBuffer = (.delivered b.buffer, b))
    (inflated : z.inflate b.buffer n = (stop, chunk, z', rest)) (sound : stop ≠ .corrupt)
    (some : chunk ≠ []) :
    readBody z b n = .result (.delivered chunk) (.inside (.body z') { b with buffer := rest }) := by
  rw [readBody, filled]
  dsimp only
  rw [inflated]
  cases stop with
  | corrupt => exact absurd rfl sound
  | full | hungry | finished => exact if_pos some

/-- A request inside a body delivers something, unless the payload is over and the trailer with
    it. -/
theorem readBody_of_completes {z : Inflater} {payload behind : Bytes}
    (completes : z.Completes b.buffer payload behind) (pos : 0 < n) :
    (payload = [] ∧ readBody z b n = .ended { b with buffer := behind }) ∨
    ∃ z' rest chunk later, chunk ≠ [] ∧ payload = chunk ++ later ∧
      readBody z b n =
        .result (.delivered chunk) (.inside (.body z') { b with buffer := rest }) ∧
      z'.Completes rest later behind := by
  have filled := Buffered.fillBuffer_of_ne_nil completes.ne_nil
  rcases completes.run n with
    ⟨z', rest, chunk, later, hrun, appended, count, hpayload, completes'⟩ | ⟨final, hrun, hfinal⟩
  · have some : chunk ≠ [] := List.ne_nil_of_length_pos (by omega)
    have inflated := Inflater.inflate_of_run hrun appended
    have answer := readBody_of_inflate filled inflated (fun corrupt => by cases corrupt) some
    exact .inr ⟨z', rest, chunk, later, some, hpayload, answer, completes'⟩
  · have inflated := Inflater.inflate_of_run hrun hfinal
    by_cases none : payload = []
    · subst none
      refine .inl ⟨rfl, ?_⟩
      rw [readBody, filled]
      dsimp only
      rw [inflated]
      exact readTrailer_of_reads (reads_trailer _ _) rfl
    · have answer := readBody_of_inflate filled inflated (fun corrupt => by cases corrupt) none
      refine .inr ⟨⟨.finished, [], final⟩,
        Frame.trailer (crc32 final.toList 0) final.size ++ behind, payload, [], none,
        (List.append_nil _).symm, answer, 0, final, ?_, ?_⟩
      · rw [Inflater.run]
      · exact (List.append_nil _).symm

end Requests

end ParallelGzip
