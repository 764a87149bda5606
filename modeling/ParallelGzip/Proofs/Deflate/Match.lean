import ParallelGzip.Proofs.Deflate.Grammar
import ParallelGzip.Proofs.Deflate.Symbol

set_option autoImplicit false

/-! # Tokens say what stands in the text

However matches are proposed, a copy is only written as far as the bytes have been compared. So the
tokens cut from a text say what stands there, and behind the text before them the symbols that they
are written as put out the rest of it. -/

namespace ParallelGzip

theorem length_windowOf_le (bytes : Bytes) : (windowOf bytes).length ≤ windowSize := by
  rw [windowOf, List.length_drop]
  omega

theorem windowOf_isSuffix (bytes : Bytes) : windowOf bytes <:+ bytes := List.drop_suffix _ _

namespace Deflate

/-! ## Tokens and text -/

/-- A match at `pos`, given by length and distance: so many bytes agree with those from `distance`
    back. Nothing is said of a match without bytes. -/
def IsMatch (text : Array UInt8) (pos : Nat) (found : Nat × Nat) : Prop :=
  found.1 ≤ maxMatch ∧ (0 < found.1 →
    1 ≤ found.2 ∧ found.2 ≤ windowSize ∧ found.2 ≤ pos ∧ pos + found.1 ≤ text.size ∧
      ∀ k < found.1, text[pos + k]? = text[pos - found.2 + k]?)

/-- The tokens say what stands in the text from the first position up to the second. -/
inductive Cuts (text : Array UInt8) : Nat → List Token → Nat → Prop
  | nil (pos : Nat) : Cuts text pos [] pos
  | literal {pos stop : Nat} {tokens : List Token} {value : UInt8} (here : text[pos]? = some value)
      (rest : Cuts text (pos + 1) tokens stop) : Cuts text pos (.literal value :: tokens) stop
  | copy {pos stop length distance : Nat} {tokens : List Token} (long : 3 ≤ length)
      (found : IsMatch text pos (length, distance)) (rest : Cuts text (pos + length) tokens stop) :
      Cuts text pos (.copy length distance :: tokens) stop

namespace Cuts

variable {text : Array UInt8} {pos stop : Nat} {first second tokens : List Token}

theorem split (cuts : Cuts text pos (first ++ second) stop) :
    ∃ middle, Cuts text pos first middle ∧ Cuts text middle second stop := by
  induction first generalizing pos with
  | nil => exact ⟨pos, .nil pos, cuts⟩
  | cons token first ih =>
    cases cuts with
    | literal here rest =>
      obtain ⟨middle, hfirst, hsecond⟩ := ih rest
      exact ⟨middle, .literal here hfirst, hsecond⟩
    | copy long found rest =>
      obtain ⟨middle, hfirst, hsecond⟩ := ih rest
      exact ⟨middle, .copy long found hfirst, hsecond⟩

theorem stop_eq (cuts : Cuts text pos tokens stop) : stop = pos + tokensLength tokens := by
  induction cuts with
  | nil pos => rfl
  | literal _ _ ih =>
    rw [ih, tokensLength, Token.length, Nat.add_assoc]
  | copy _ _ _ ih => rw [ih, tokensLength, Token.length, Nat.add_assoc]

theorem stop_le (cuts : Cuts text pos tokens stop) (le : pos ≤ text.size) : stop ≤ text.size := by
  induction cuts with
  | nil pos => exact le
  | literal here _ ih => exact ih (Array.getElem?_eq_some_iff.1 here).1
  | copy long found _ ih => exact ih (found.2 (by omega)).2.2.2.1

theorem writable (cuts : Cuts text pos tokens stop) : ∀ token ∈ tokens, token.Writable := by
  induction cuts with
  | nil pos => simp
  | literal here _ ih =>
    rintro token (_ | ⟨_, later⟩)
    · trivial
    · exact ih token later
  | copy long found _ ih =>
    rintro token (_ | ⟨_, later⟩)
    · obtain ⟨nearest, farthest, -⟩ := found.2 (by omega)
      exact ⟨long, found.1, nearest, farthest⟩
    · exact ih token later

/-- Every token stands for a byte at least. -/
theorem length_le (cuts : Cuts text pos tokens stop) : pos + tokens.length ≤ stop := by
  induction cuts with
  | nil pos => exact Nat.le_refl _
  | literal _ _ ih =>
    rw [List.length_cons]
    omega
  | copy _ _ _ ih =>
    rw [List.length_cons]
    omega

end Cuts

/-! ## Finding matches -/

theorem agreement_spec (text : Array UInt8) (i j limit found : Nat) :
    found ≤ agreement text i j limit found ∧ agreement text i j limit found ≤ found + limit ∧
      ∀ k, found ≤ k → k < agreement text i j limit found →
        j + k < text.size ∧ text[j + k]? = text[i + k]? := by
  induction limit generalizing found with
  | zero => exact ⟨Nat.le_refl _, Nat.le_refl _, fun k le lt => absurd lt (Nat.not_lt.2 le)⟩
  | succ limit ih =>
    rw [agreement]
    by_cases agree : text[j + found]?.isSome ∧ text[i + found]? = text[j + found]?
    · rw [if_pos agree]
      obtain ⟨lower, upper, later⟩ := ih (found + 1)
      refine ⟨by omega, by omega, ?_⟩
      intro k le lt
      by_cases here : k = found
      · subst here
        obtain ⟨value, there⟩ := Option.isSome_iff_exists.1 agree.1
        exact ⟨(Array.getElem?_eq_some_iff.1 there).1, agree.2.symm⟩
      · exact later k (by omega) lt
    · rw [if_neg agree]
      exact ⟨Nat.le_refl _, by omega, fun k le lt => absurd lt (Nat.not_lt.2 le)⟩

theorem isMatch_agreement {text : Array UInt8} {pos candidate : Nat} (before : candidate < pos)
    (near : pos - candidate ≤ windowSize) :
    IsMatch text pos (agreement text candidate pos maxMatch 0, pos - candidate) := by
  obtain ⟨-, upper, agrees⟩ := agreement_spec text candidate pos maxMatch 0
  have back : pos - (pos - candidate) = candidate := by omega
  refine ⟨by omega, fun some => ⟨by omega, near, by omega, ?_, ?_⟩⟩
  · have last := (agrees (agreement text candidate pos maxMatch 0 - 1) (by omega) (by omega)).1
    dsimp only
    omega
  · intro k lt
    rw [back]
    exact (agrees k (by omega) lt).2

theorem isMatch_bestMatch (text : Array UInt8) (seen : Seen) (pos left candidate : Nat)
    {best : Nat × Nat} (found : IsMatch text pos best) :
    IsMatch text pos (bestMatch text seen pos left candidate best) := by
  fun_induction bestMatch text seen pos left candidate best with
  | case1 => exact found
  | case2 => exact found
  | case3 left candidate best reachable length ih =>
    refine ih ?_
    by_cases better : best.1 < length
    · rw [if_pos better]
      exact isMatch_agreement reachable.1 reachable.2.1
    · rw [if_neg better]
      exact found
  | case4 => exact found

/-- The tokens cut from a text say what stands there, and they end where no more were asked for. -/
theorem cuts_tokensFrom (text : Array UInt8) (effort stop limit : Nat) (seen : Seen) (pos : Nat)
    (acc : Array Token) :
    ∃ tokens last, (tokensFrom text effort stop limit seen pos acc).toList = acc.toList ++ tokens ∧
      Cuts text pos tokens last ∧
      (text.size ≤ last ∨ stop ≤ last ∨ limit ≤ (acc.toList ++ tokens).length) := by
  fun_induction tokensFrom text effort stop limit seen pos acc with
  | case1 seen pos acc inside enough =>
    refine ⟨[], pos, (List.append_nil _).symm, .nil pos, ?_⟩
    rw [List.append_nil, Array.length_toList]
    exact .inr enough
  | case2 seen pos acc inside more head length distance hfound long ih =>
    obtain ⟨tokens, last, hmade, cuts, ends⟩ := ih
    have found : IsMatch text pos (length, distance) := by
      rw [← hfound]
      refine isMatch_bestMatch _ _ _ _ _ ⟨Nat.zero_le _, fun some => absurd some (Nat.lt_irrefl 0)⟩
    rw [Array.toList_push, List.append_assoc] at hmade ends
    exact ⟨_, last, hmade, .copy (Nat.le_of_succ_le long) found cuts, ends⟩
  | case3 seen pos acc inside more head length distance hfound short ih =>
    obtain ⟨tokens, last, hmade, cuts, ends⟩ := ih
    rw [Array.toList_push, List.append_assoc] at hmade ends
    exact ⟨_, last, hmade, .literal (Array.getElem?_eq_getElem inside) cuts, ends⟩
  | case4 seen pos acc outside =>
    exact ⟨[], pos, (List.append_nil _).symm, .nil pos, .inl (Nat.le_of_not_lt outside)⟩

/-- The tokens say what stands behind the dictionary, as far as they go. -/
theorem exists_cuts_tokens (effort : Nat) (dictionary : Bytes) (raw : Array UInt8)
    (stop limit : Nat) :
    ∃ last, Cuts (dictionary.toArray ++ raw) dictionary.length
      (tokens effort dictionary raw stop limit) last := by
  obtain ⟨tokens, last, made, cuts, -⟩ := cuts_tokensFrom (dictionary.toArray ++ raw) effort
    (dictionary.length + stop) limit ((Seen.empty (dictionary.toArray ++ raw).size).insertFrom
      (dictionary.toArray ++ raw) 0 dictionary.length) dictionary.length #[]
  refine ⟨last, ?_⟩
  rw [Deflate.tokens, made, List.nil_append]
  exact cuts

/-- If there is no limit to be met before, the tokens stand for all there is. -/
theorem cuts_tokens (effort : Nat) (dictionary raw : Bytes) :
    Cuts (dictionary.toArray ++ raw.toArray) dictionary.length
      (tokens effort dictionary raw.toArray raw.length raw.length)
      (dictionary.length + raw.length) := by
  have size : (dictionary.toArray ++ raw.toArray).size = dictionary.length + raw.length := by simp
  obtain ⟨tokens, last, made, cuts, ends⟩ := cuts_tokensFrom (dictionary.toArray ++ raw.toArray)
    effort (dictionary.length + raw.length) raw.length
    ((Seen.empty (dictionary.toArray ++ raw.toArray).size).insertFrom
      (dictionary.toArray ++ raw.toArray) 0 dictionary.length) dictionary.length #[]
  rw [Deflate.tokens, made, List.nil_append]
  rw [List.nil_append] at ends
  have inside := cuts.stop_le (by omega)
  have many := cuts.length_le
  -- so many tokens would stand for more bytes than there are
  have whole : last = dictionary.length + raw.length := by omega
  exact whole ▸ cuts

/-! ## Tokens as symbols -/

theorem size_of_before {text history : Array UInt8} {pos : Nat} {base : Bytes}
    (before : history.toList = base ++ text.toList.take pos) (le : pos ≤ text.size) :
    history.size = base.length + pos := by
  have size := congrArg List.length before
  simpa [Nat.min_eq_left le] using size

/-- What a match repeats, the output so far being a text up to the place of the match. -/
theorem agrees_of_isMatch {text : Array UInt8} {pos length distance : Nat} {history : Array UInt8}
    {base : Bytes} (before : history.toList = base ++ text.toList.take pos) (le : pos ≤ text.size)
    (some : 0 < length) (found : IsMatch text pos (length, distance)) :
    ∀ k < length, ((text.toList.drop pos).take length)[k]? =
      (history.toList ++ (text.toList.drop pos).take length)[history.size + k - distance]? := by
  obtain ⟨nearest, -, back, inside, same⟩ := found.2 some
  dsimp only at nearest back inside same
  intro k lt
  have size := size_of_before before le
  have place : history.size + k - distance = base.length + (pos - distance + k) := by omega
  rw [List.getElem?_take_of_lt lt, List.getElem?_drop, place, before, List.append_assoc,
    List.getElem?_append_right (Nat.le_add_right _ _), Nat.add_sub_cancel_left, ← List.take_add,
    List.getElem?_take_of_lt (by omega), Array.getElem?_toList, Array.getElem?_toList]
  exact same k lt

/-- Bytes that go on from the history as those `distance` back did are a copy. -/
theorem copied_of_agrees {copied : Bytes} {distance : Nat} {history : Array UInt8}
    (far : 0 < distance) (near : distance ≤ history.size) (agrees : ∀ k < copied.length,
      copied[k]? = (history.toList ++ copied)[history.size + k - distance]?) :
    Copied distance history copied := by
  induction copied generalizing history with
  | nil => exact .nil history
  | cons value copied ih =>
    have source : history[history.size - distance]? = some value := by
      have first := agrees 0 (Nat.zero_lt_succ _)
      rw [Nat.add_zero, List.getElem?_append_left (by rw [Array.length_toList]; omega)] at first
      rw [← Array.getElem?_toList, ← first, List.getElem?_cons_zero]
    -- with the byte that was copied in the history, the others are as far away as it was
    have closer : distance ≤ (history.push value).size := by
      rw [Array.size_push]
      omega
    refine .cons far near source (ih closer ?_)
    intro k hk
    have next := agrees (k + 1) (by simpa using hk)
    rw [List.getElem?_cons_succ] at next
    rw [next, Array.toList_push, Array.size_push]
    simp [Nat.add_comm, Nat.add_left_comm]

/-- What a copy is written as is read as a length and a distance. -/
theorem Symbols.copy_of_has {length distance : Nat} {words : Words} {codes : Codes}
    {history : Array UInt8} {bits : List Bool} {copied output : Bytes}
    (has : words.Has codes (.copy length distance))
    (writable : Token.Writable (.copy length distance)) (count : copied.length = length)
    (isCopy : Copied distance history copied)
    (next : Symbols codes (history ++ copied) bits output) :
    Symbols codes history (Token.bits words (.copy length distance) ++ bits)
      (copied ++ output) := by
  obtain ⟨-, event⟩ | ⟨_, -, event⟩ |
    ⟨word, distanceWord, symbol, lengthExtra, distance', distanceExtra, reads, readsDistance, bits,
      event⟩ := reads_symbol_iff.1 (reads_copy has writable 1 false)
  · cases event
  · cases event
  · injection event with sameLength sameDistance
    rw [bits]
    exact .copy reads readsDistance (count.trans (congrArg Fin.val sameLength))
      (sameDistance ▸ isCopy) next

/-- The tokens are read one after the other, and then what follows them. -/
theorem Cuts.symbols {text : Array UInt8} {pos stop : Nat} {tokens : List Token} {words : Words}
    {codes : Codes} {history : Array UInt8} {base : Bytes} {bits : List Bool} {output : Bytes}
    (cuts : Cuts text pos tokens stop) (has : ∀ token ∈ tokens, words.Has codes token)
    (le : pos ≤ text.size) (before : history.toList = base ++ text.toList.take pos)
    (behind : Symbols codes (history ++ (text.toList.drop pos).take (tokensLength tokens)) bits
      output) :
    Symbols codes history (tokens.flatMap (Token.bits words) ++ bits)
      ((text.toList.drop pos).take (tokensLength tokens) ++ output) := by
  induction cuts generalizing history with
  | nil pos => simpa [tokensLength] using behind
  | @literal pos stop tokens value here _ ih =>
    obtain ⟨inside, there⟩ := Array.getElem?_eq_some_iff.1 here
    have reads := (has _ List.mem_cons_self : words.HasLiteral codes value.toNat).reads
    -- the literal is put out, and the rest stands behind it in the text
    have cut : text.toList.drop pos = value :: text.toList.drop (pos + 1) := by
      rw [List.drop_eq_getElem_cons (by rwa [Array.length_toList]), Array.getElem_toList, there]
    have after : (history.push value).toList = base ++ text.toList.take (pos + 1) := by
      rw [Array.toList_push, before, List.append_assoc, List.take_add_one, Array.getElem?_toList,
        here, Option.toList_some]
    have all : (text.toList.drop pos).take (tokensLength (.literal value :: tokens)) =
        value :: (text.toList.drop (pos + 1)).take (tokensLength tokens) := by
      rw [tokensLength, Token.length, cut, Nat.add_comm 1, List.take_succ_cons]
    have pushed : history ++ (value :: (text.toList.drop (pos + 1)).take (tokensLength tokens)) =
        history.push value ++ (text.toList.drop (pos + 1)).take (tokensLength tokens) := by simp
    rw [all, pushed] at behind
    rw [all, List.flatMap_cons, List.append_assoc]
    exact .literal reads
      (ih (fun token listed => has token (List.mem_cons_of_mem _ listed)) inside after behind)
  | @copy pos stop length distance tokens long found _ ih =>
    have some : 0 < length := by omega
    obtain ⟨nearest, -, back, inside, -⟩ := found.2 some
    dsimp only at nearest back inside
    have size := size_of_before before le
    -- the bytes that are copied are those that stand here in the text
    have count : ((text.toList.drop pos).take length).length = length := by
      rw [List.length_take, List.length_drop, Array.length_toList]
      omega
    have isCopy : Copied distance history ((text.toList.drop pos).take length) := by
      refine copied_of_agrees nearest (by omega) ?_
      rw [count]
      exact agrees_of_isMatch before le some found
    have after : (history ++ (text.toList.drop pos).take length).toList =
        base ++ text.toList.take (pos + length) := by
      rw [Array.toList_appendList, before, List.append_assoc, ← List.take_add]
    have written := Cuts.writable (.copy long found (.nil (pos + length))) _ List.mem_cons_self
    have all : (text.toList.drop pos).take (tokensLength (.copy length distance :: tokens)) =
        (text.toList.drop pos).take length
          ++ (text.toList.drop (pos + length)).take (tokensLength tokens) := by
      rw [tokensLength, Token.length, List.take_add, List.drop_drop]
    rw [all, appendList_append] at behind
    rw [all, List.flatMap_cons, List.append_assoc, List.append_assoc]
    exact .copy_of_has (has _ List.mem_cons_self) written count isCopy
      (ih (fun token listed => has token (List.mem_cons_of_mem _ listed)) inside after behind)

end Deflate

end ParallelGzip
