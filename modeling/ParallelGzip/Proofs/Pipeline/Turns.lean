import Mathlib.Data.List.Induction

set_option autoImplicit false

/-! # Turns: every n-th element of a list

Entries are dealt out to `n` lanes in turn. `turns n j xs` is what lane `j` gets of `xs`. The main
statement, `getElem?_turns`, says where an element is found again: the element with index `p` is
number `p / n` on lane `p % n`. -/

namespace ParallelGzip

variable {α : Type}

/-- The elements of `xs` with an index of the form `k * n + j`, in their order. -/
def turns (n j : Nat) (xs : List α) : List α :=
  xs.zipIdx.filterMap fun (x, i) => if i % n = j then some x else none

@[simp] theorem turns_nil (n j : Nat) : turns n j ([] : List α) = [] := rfl

theorem turns_append_singleton (n j : Nat) (xs : List α) (x : α) :
    turns n j (xs ++ [x]) = turns n j xs ++ if xs.length % n = j then [x] else [] := by
  simp only [turns, List.zipIdx_append, List.filterMap_append, List.zipIdx_cons, List.zipIdx_nil,
    Nat.zero_add]
  by_cases h : xs.length % n = j <;> simp [h]

theorem turns_append_of_eq {n j : Nat} {xs : List α} (h : xs.length % n = j) (x : α) :
    turns n j (xs ++ [x]) = turns n j xs ++ [x] := by
  rw [turns_append_singleton, if_pos h]

theorem turns_append_of_ne {n j : Nat} {xs : List α} (h : xs.length % n ≠ j) (x : α) :
    turns n j (xs ++ [x]) = turns n j xs := by
  rw [turns_append_singleton, if_neg h, List.append_nil]

/-- The step that ends a round. -/
theorem succ_div_mod_of_eq {n m : Nat} (hn : 0 < n) (h : m % n + 1 = n) :
    (m + 1) / n = m / n + 1 ∧ (m + 1) % n = 0 := by
  have hm := Nat.div_add_mod m n
  rw [Nat.div_mod_unique hn, Nat.mul_add]
  exact ⟨by omega, hn⟩

/-- A step within a round. -/
theorem succ_div_mod_of_ne {n m : Nat} (hn : 0 < n) (h : m % n + 1 ≠ n) :
    (m + 1) / n = m / n ∧ (m + 1) % n = m % n + 1 := by
  have hm := Nat.div_add_mod m n
  have hlt := Nat.mod_lt m hn
  rw [Nat.div_mod_unique hn]
  exact ⟨by omega, by omega⟩

/-- A lane gets one element of each full round, and one more if it had its turn in the last. -/
theorem length_turns {n j : Nat} (hj : j < n) (xs : List α) :
    (turns n j xs).length = xs.length / n + if j < xs.length % n then 1 else 0 := by
  have hn : 0 < n := by omega
  induction xs using List.reverseRecOn with
  | nil => simp
  | append_singleton xs x ih =>
    rw [turns_append_singleton, List.length_append, ih, List.length_append,
      List.length_singleton]
    have hmod := Nat.mod_lt xs.length hn
    by_cases hround : xs.length % n + 1 = n
    · obtain ⟨hdiv, hrest⟩ := succ_div_mod_of_eq hn hround
      rw [hdiv, hrest]
      by_cases heq : xs.length % n = j
      · rw [if_pos heq, if_neg (by omega), if_neg (by omega), List.length_singleton]
      · rw [if_neg heq, if_pos (by omega), if_neg (by omega), List.length_nil]
    · obtain ⟨hdiv, hrest⟩ := succ_div_mod_of_ne hn hround
      rw [hdiv, hrest]
      by_cases heq : xs.length % n = j
      · rw [if_pos heq, if_neg (by omega), if_pos (by omega), List.length_singleton]
      · rw [if_neg heq, List.length_nil, Nat.add_zero]
        simp only [show (j < xs.length % n + 1) = (j < xs.length % n) by
          simp only [eq_iff_iff]
          omega]

/-- The element with index `p` is number `p / n` on lane `p % n`. -/
theorem getElem?_turns {n : Nat} (hn : 0 < n) (xs : List α) (p : Nat) :
    (turns n (p % n) xs)[p / n]? = xs[p]? := by
  induction xs using List.reverseRecOn with
  | nil => simp
  | append_singleton xs x ih =>
    have hlen := length_turns (Nat.mod_lt p hn) xs
    rcases Nat.lt_trichotomy p xs.length with hlt | rfl | hgt
    · rw [List.getElem?_append_left hlt, ← ih, turns_append_singleton]
      have hbefore : p / n < (turns n (p % n) xs).length := by
        have hsome := List.getElem?_eq_getElem hlt
        rw [← ih] at hsome
        exact (List.getElem?_eq_some_iff.1 hsome).1
      rw [List.getElem?_append_left hbefore]
    · have hat : (turns n (xs.length % n) xs).length = xs.length / n := by
        rw [hlen, if_neg (Nat.lt_irrefl _), Nat.add_zero]
      rw [turns_append_of_eq rfl, ← hat, List.getElem?_concat_length, List.getElem?_concat_length]
    · have hnone : (xs ++ [x])[p]? = none := by
        simp
        omega
      have hnext := length_turns (Nat.mod_lt p hn) (xs ++ [x])
      have hle : (xs ++ [x]).length ≤ p := by
        rw [List.length_append, List.length_singleton]
        omega
      rw [hnone, List.getElem?_eq_none_iff, hnext]
      -- round and turn of `p` come behind those of the last element
      rcases Nat.lt_or_eq_of_le (Nat.div_le_div_right (c := n) hle) with hround | hround
      · split <;> omega
      · have h1 := Nat.div_add_mod (xs ++ [x]).length n
        have h2 := Nat.div_add_mod p n
        rw [hround] at h1
        rw [if_neg (by omega)]
        omega

theorem mem_of_mem_turns {n j : Nat} {xs : List α} {x : α} (hx : x ∈ turns n j xs) : x ∈ xs := by
  obtain ⟨⟨y, i⟩, hy, found⟩ := List.mem_filterMap.1 hx
  dsimp only at found
  split at found
  · cases found
    exact List.fst_mem_of_mem_zipIdx hy
  · cases found

/-- What a lane has got stays with it. -/
theorem turns_isPrefix {xs ys : List α} (n j : Nat) (h : xs <+: ys) :
    turns n j xs <+: turns n j ys := by
  obtain ⟨zs, rfl⟩ := h
  induction zs using List.reverseRecOn with
  | nil => simp
  | append_singleton zs z ih =>
    rw [← List.append_assoc, turns_append_singleton]
    exact ih.trans (List.prefix_append _ _)

end ParallelGzip
