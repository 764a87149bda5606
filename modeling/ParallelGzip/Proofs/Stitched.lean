import Mathlib.Data.List.Forall2
import ParallelGzip.Proofs.Checksum.Combine
import ParallelGzip.Proofs.Compressor
import ParallelGzip.Proofs.Members

set_option autoImplicit false

/-! # Stitched members

Blocks are compressed one by one, but each with the block before it in the member as dictionary, so
one behind the other they inflate to the payload of the member; its checksum is put together from
theirs. `Composed.stitched` carries this over to the entries of a writer: behind the header of the
first member they make whole members, and the last end leaves none open. -/

namespace ParallelGzip

open Deflate (Inflates)

/-! ## Blocks that can be put together -/

/-- What a block promises that has been made of `raw`: its checksum and its length are right, and
    behind a history that ends with the dictionary it inflates to `raw`. -/
structure CompressedBlock.Faithful (compressed : CompressedBlock) (raw dictionary : Bytes) :
    Prop where
  crc : compressed.crc = crc32 raw 0
  length : compressed.length = raw.length
  inflates : dictionary.length ≤ windowSize → ∀ history : Array UInt8,
    dictionary <:+ history.toList → Inflates compressed.data history raw

/-- What has become of an entry can stand for it. -/
def Rendered.StandsFor : Rendered → Entry → Prop
  | block _ compressed, .block _ data dictionary => compressed.Faithful data dictionary
  | memberEnd next, .memberEnd next' => next = next'
  | _, _ => False

/-- What the library's compressors make of an entry stands for it. -/
theorem Entry.standsFor_render (entry : Entry) (level : Nat) :
    (entry.render level).StandsFor entry := by
  cases entry with
  | block number data dictionary =>
    refine ⟨rfl, rfl, ?_⟩
    intro _ history behind
    obtain ⟨base, ends⟩ := (windowOf_isSuffix dictionary).trans behind
    exact Deflate.inflates_encode _ data _ ends.symm
  | memberEnd next => rfl

/-! ## Members in the making -/

/-- The bytes are the members that are whole, and unless the last one has `ended`, the header and
    the blocks of the open member. -/
def Stitched (bytes : Bytes) (tally : Tally) (p : Payloads) (previous : Bytes) : Bool → Prop
  | true => IsStream bytes p.whole
  | false => ∃ stream level blocks before, IsStream stream p.whole ∧
      bytes = stream ++ (Frame.header level ++ blocks) ∧ Inflates blocks #[] p.current ∧
      p.current = before ++ previous ∧ tally = ⟨crc32 p.current 0, p.current.length⟩

namespace Stitched

variable {bytes previous : Bytes} {tally : Tally} {p : Payloads}

/-- Behind the header of the first member. -/
theorem header (level : Nat) : Stitched (Frame.header level) .zero .empty [] false :=
  ⟨[], level, [], [], .nil, (List.append_nil _).symm, .nil #[], rfl, rfl⟩

/-- The dictionary of a block is the end of what is there of the member. -/
theorem block {compressed : CompressedBlock} {data : Bytes}
    (stitched : Stitched bytes tally p previous false) (number : Nat)
    (faithful : compressed.Faithful data (windowOf previous)) :
    Stitched (bytes ++ tally.bytes (.block number compressed))
      (tally.add (.block number compressed)) (p.write data) data false := by
  obtain ⟨stream, opening, blocks, before, isStream, rfl, inflates, hcurrent, rfl⟩ := stitched
  obtain ⟨crc, length, coded⟩ := faithful
  obtain ⟨outside, hwindow⟩ : windowOf previous <:+ p.current :=
    (windowOf_isSuffix previous).trans ⟨before, hcurrent.symm⟩
  have follows : Inflates compressed.data ((#[] : Array UInt8) ++ p.current) data := by
    refine coded (length_windowOf_le previous) _ ⟨outside, ?_⟩
    rw [hwindow, Array.toList_appendList, List.nil_append]
  refine ⟨stream, opening, _, p.current, isStream, ?_, inflates.append follows, rfl, ?_⟩
  · rw [List.append_assoc, List.append_assoc]
    rfl
  · simp only [Tally.add, crc, length, Payloads.write, Crc32.combine_append, List.length_append]

/-- The end of a member makes it whole, and behind it there is the header of the next one if there
    is to be one. -/
theorem cut (stitched : Stitched bytes tally p previous false) (next : Option Nat) :
    ∃ stream, IsStream stream p.cut.whole ∧
      bytes ++ tally.bytes (.memberEnd next) = stream ++ next.elim [] Frame.header := by
  obtain ⟨stream, opening, blocks, before, isStream, rfl, inflates, -, rfl⟩ := stitched
  have member : IsMember (Frame.header opening ++ (blocks
      ++ Frame.memberEnd (crc32 p.current 0) p.current.length none)) p.current :=
    isMember_of_header inflates opening
  refine ⟨_, isStream.concat member, ?_⟩
  cases next <;> simp [Tally.bytes, Frame.memberEnd]

/-- The end of a member opens another one unless it is the last. -/
theorem memberEnd (stitched : Stitched bytes tally p previous false) (next : Option Nat) :
    Stitched (bytes ++ tally.bytes (.memberEnd next)) (tally.add (.memberEnd next)) p.cut []
      next.isNone := by
  obtain ⟨stream, isStream, whole⟩ := stitched.cut next
  rw [whole]
  cases next with
  | none => exact (List.append_nil stream).symm ▸ isStream
  | some level =>
    refine ⟨stream, level, [], [], isStream, ?_, .nil #[], rfl, ?_⟩
    · rw [List.append_nil, Option.elim_some]
    · show Tally.zero = ⟨crc32 [] 0, 0⟩
      rw [crc32_nil]
      rfl

end Stitched

/-- What goes with the elements of a list that has a last one. -/
theorem forall₂_concat {α β : Type} {R : α → β → Prop} {xs : List α} {ys : List β} {y : β}
    (related : List.Forall₂ R xs (ys ++ [y])) :
    ∃ before last, xs = before ++ [last] ∧ List.Forall₂ R before ys ∧ R last y := by
  have front := List.forall₂_take_append _ _ _ related
  have back := List.forall₂_drop_append _ _ _ related
  obtain ⟨last, none, now, nothing, hlast⟩ := List.forall₂_cons_right_iff.1 back
  obtain rfl := List.forall₂_nil_right_iff.1 nothing
  refine ⟨_, last, ?_, front, now⟩
  rw [← hlast, List.take_append_drop]

/-- Entries that stand for payloads make, behind the header of the first member, members with these
    payloads, whatever has become of them as long as it can stand for them. -/
theorem Composed.stitched_of_standsFor {entries : List Entry} {made : List Rendered}
    {p : Payloads} {previous : Bytes} {ended : Bool}
    (composed : Composed entries p previous ended)
    (faithful : List.Forall₂ Rendered.StandsFor made entries) (level : Nat) :
    Stitched (Frame.header level ++ Tally.zero.stitch made) (Tally.zero.addAll made) p previous
      ended := by
  induction composed generalizing made with
  | nil =>
    cases faithful
    exact List.append_nil (Frame.header level) ▸ .header level
  | block number data before ih =>
    obtain ⟨made, last, rfl, earlier, now⟩ := forall₂_concat faithful
    rw [Tally.stitch_append_singleton, Tally.addAll_append_singleton, ← List.append_assoc]
    cases last with
    | block _ compressed => exact (ih earlier).block _ now
    | memberEnd next => exact now.elim
  | memberEnd next before ih =>
    obtain ⟨made, last, rfl, earlier, now⟩ := forall₂_concat faithful
    rw [Tally.stitch_append_singleton, Tally.addAll_append_singleton, ← List.append_assoc]
    cases last with
    | block _ compressed => exact now.elim
    | memberEnd next' =>
      obtain rfl : next' = next := now
      exact (ih earlier).memberEnd _

/-- The library's compressors make members with the payloads. -/
theorem Composed.stitched {entries : List Entry} {p : Payloads} {previous : Bytes} {ended : Bool}
    (composed : Composed entries p previous ended) (level : Nat) :
    Stitched (Frame.header level ++ Tally.zero.stitch (entries.map (Entry.render level)))
      (Tally.zero.addAll (entries.map (Entry.render level))) p previous ended := by
  refine composed.stitched_of_standsFor ?_ level
  rw [List.forall₂_map_left_iff, List.forall₂_same]
  exact fun entry _ => entry.standsFor_render level

end ParallelGzip
