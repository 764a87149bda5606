import ParallelGzip.Proofs.Deflate.Store
import ParallelGzip.Proofs.Members
import ParallelGzip.Proofs.Verdict

set_option autoImplicit false

/-! # Segmentation: how the input is cut does not matter

A caller reads on with requests of any sizes and makes a request again where it was refused. What it
gets in the end is the verdict on the data, whatever pieces the source serves, whatever the buffer
holds and wherever the source refuses a request, as long as the buffer holds anything at all: a
buffer without capacity takes every stream for an empty one. -/

namespace ParallelGzip

namespace Members

section Runs

variable {σ : Type} [Source σ]

/-- Make requests of these sizes, as many as given, one after the other, up to the end or to a
    failure. A refused request may be made again; it counts as one. The result is what has been
    delivered, how it stopped if it did, and the decoder. -/
def readOn (m : Members σ) (sizes : Nat → Nat) : (requests : Nat) →
    Bytes × Option Ending × Members σ
  | 0 => ([], none, m)
  | requests + 1 =>
    let later := fun i => sizes (i + 1)
    match Source.read m (sizes 0) with
    | (.delivered [], m') => ([], some .ended, m')
    | (.delivered (c :: bytes), m') =>
      let (payload, stop, last) := m'.readOn later requests
      (c :: bytes ++ payload, stop, last)
    | (.interrupted _, m') => m'.readOn later requests
    | (.failed cause, m') =>
      if cause.Passing then m'.readOn later requests else ([], some (.failed cause), m')
    | (.panicked, m') => ([], some .panicked, m')

/-- A run that has come to what the verdict says. -/
structure Reaches (v : Verdict) (run : Bytes × Option Ending × Members σ) : Prop where
  stop : run.2.1 = some v.ending
  members : run.2.2.started = v.members
  payload : run.1 <+: v.payload
  /-- Only damaged data can cost some of the payload. -/
  complete : v.failure ≠ some corruptBody → run.1 = v.payload
  final : ∀ cause, v.failure = some cause → ¬cause.Passing
  atEnd : v.failure = none → run.2.2.AtEnd

omit [Source σ] in
theorem Reaches.behind {v : Verdict} {chunk payload : Bytes} {stop : Option Ending}
    {last : Members σ} (reaches : Reaches v (payload, stop, last)) :
    Reaches (v.behind chunk) (chunk ++ payload, stop, last) where
  stop := reaches.stop
  members := reaches.members
  payload := (List.prefix_append_right_inj chunk).2 reaches.payload
  complete := fun sound => congrArg (chunk ++ ·) (reaches.complete sound)
  final := reaches.final
  atEnd := reaches.atEnd

/-- Enough requests come to what the verdict says. Each of them delivers at least a byte, or uses up
    a refusal, or finds the end. -/
theorem Holds.reaches {m : Members σ} {data : Bytes} {refusals : Nat}
    (holds : m.Holds data refusals) {sizes : Nat → Nat} (pos : ∀ i, 0 < sizes i) {requests : Nat}
    (enough : (m.verdict data).payload.length + refusals < requests) :
    Reaches (m.verdict data) (m.readOn sizes requests) := by
  induction requests generalizing m data refusals sizes with
  | zero => exact absurd enough (Nat.not_lt_zero _)
  | succ requests ih =>
    have later := fun i => pos (i + 1)
    have answers := holds.read (pos 0)
    rw [readOn]
    generalize Source.read m (sizes 0) = answer at answers ⊢
    cases answers with
    | @delivered chunk data m' refusals' some fewer holds whole =>
      have less : (m'.verdict data).payload.length + refusals' < requests := by
        have nonempty := List.length_pos_iff.2 some
        rw [whole, Verdict.behind, List.length_append] at enough
        omega
      cases chunk with
      | nil => exact absurd rfl some
      | cons c bytes =>
        rw [whole]
        exact (ih holds later less).behind
    | refused passing fewer holds whole =>
      rw [whole] at enough ⊢
      cases passing with
      | interrupted passing => exact ih holds later (by omega)
      | failed passing =>
        dsimp only
        rw [if_pos passing]
        exact ih holds later (by omega)
    | failed final failure members complete =>
      dsimp only
      rw [if_neg final]
      exact
        { stop := by rw [Verdict.ending, failure]
          members
          payload := List.nil_prefix
          complete := fun sound => (complete fun same => sound (same ▸ failure)).symm
          final := fun cause same => by cases failure.symm.trans same; exact final
          atEnd := fun none => by cases failure.symm.trans none }
    | ended atEnd ends =>
      rw [ends]
      exact
        { stop := rfl
          members := rfl
          payload := List.nil_prefix
          complete := fun _ => rfl
          final := fun cause same => by cases same
          atEnd := fun _ => atEnd }

/-- Reading on from the beginning of a source. -/
theorem reaches_verdict {s : σ} {data : Bytes} {refusals capacity : Nat}
    (serves : Source.Serves s data refusals) (room : 0 < capacity) {sizes : Nat → Nat}
    (pos : ∀ i, 0 < sizes i) :
    ∃ requests, Reaches (verdictOn 0 data) ((new ⟨s, capacity, []⟩).readOn sizes requests) :=
  ⟨_, (holds_new serves room).reaches pos (Nat.lt_succ_self _)⟩

end Runs

/-- Two runs over the same data stop in the same way and with the same number of members, whatever
    the sources, the buffers and the requests are like. They deliver the same payload, or fronts of
    it in front of damaged data; behind the end there is nothing more. -/
theorem segmentation_invisible {σ τ : Type} [Source σ] [Source τ] {s : σ} {t : τ} {data : Bytes}
    {refusals refusals' capacity capacity' : Nat} (serves : Source.Serves s data refusals)
    (serves' : Source.Serves t data refusals') (room : 0 < capacity) (room' : 0 < capacity')
    {sizes sizes' : Nat → Nat} (pos : ∀ i, 0 < sizes i) (pos' : ∀ i, 0 < sizes' i) :
    ∃ requests requests' payload payload' stop last last',
      (new ⟨s, capacity, []⟩).readOn sizes requests = (payload, some stop, last) ∧
      (new ⟨t, capacity', []⟩).readOn sizes' requests' = (payload', some stop, last') ∧
      last.started = last'.started ∧
      payload <+: (verdictOn 0 data).payload ∧
      payload' <+: (verdictOn 0 data).payload ∧
      ((stop = .ended ∧ payload = payload' ∧
          (∀ n, Source.read last n = (.delivered [], last)) ∧
          ∀ n, Source.read last' n = (.delivered [], last')) ∨
        ∃ cause, stop = .failed cause ∧ ¬cause.Passing ∧
          (cause ≠ corruptBody → payload = payload')) := by
  obtain ⟨requests, first⟩ := reaches_verdict serves room pos
  obtain ⟨requests', second⟩ := reaches_verdict serves' room' pos'
  have members := first.members.trans second.members.symm
  refine ⟨requests, requests', _, _, _, _, _, Prod.ext rfl (Prod.ext first.stop rfl),
    Prod.ext rfl (Prod.ext second.stop rfl), members, first.payload, second.payload, ?_⟩
  have whole : ∀ sound : (verdictOn 0 data).failure ≠ some corruptBody, _ := fun sound =>
    (first.complete sound).trans (second.complete sound).symm
  rw [Verdict.ending]
  cases failure : (verdictOn 0 data).failure with
  | none =>
    have sound : (verdictOn 0 data).failure ≠ some corruptBody := by
      rw [failure]
      exact fun same => by cases same
    exact .inl ⟨rfl, whole sound, (first.atEnd failure).read, (second.atEnd failure).read⟩
  | some cause =>
    refine .inr ⟨cause, rfl, first.final cause failure, fun ne => whole ?_⟩
    rw [failure]
    exact fun same => ne (Option.some.inj same)

/-- Three bytes behind a source that refuses two requests and serves its first byte alone, and behind
    one that serves everything. -/
theorem segmentation_invisible_refused :
    let data : Bytes := [0x1f, 0x8b, 8]
    let halting : Scheduled := ⟨data, [.blocked, .serve 0, .interrupted]⟩
    let plain : Scheduled := ⟨data, []⟩
    Source.Serves halting data 3 ∧ Source.Serves plain data 0 ∧
    ∃ requests requests' payload payload' stop last last',
      (new ⟨halting, 1, []⟩).readOn (fun i => i + 1) requests = (payload, some stop, last) ∧
      (new ⟨plain, 65536, []⟩).readOn (fun _ => 4096) requests' = (payload', some stop, last') ∧
      last.started = last'.started ∧
      payload <+: (verdictOn 0 data).payload ∧ payload' <+: (verdictOn 0 data).payload ∧
      ((stop = .ended ∧ payload = payload' ∧
          (∀ n, Source.read last n = (.delivered [], last)) ∧
          ∀ n, Source.read last' n = (.delivered [], last')) ∨
        ∃ cause, stop = .failed cause ∧ ¬cause.Passing ∧
          (cause ≠ corruptBody → payload = payload')) := by
  intro data halting plain
  exact ⟨halting.serves, plain.serves, segmentation_invisible halting.serves plain.serves
    (by decide) (by decide) Nat.succ_pos fun _ => by decide⟩

/-- With a buffer that has no capacity a member of three bytes is taken for the end of the stream; a
    buffer with capacity gets it. -/
theorem segmentation_visible_without_room :
    let payload : Bytes := [97, 98, 99]
    let data := Frame.header 6 ++ (Deflate.store payload ++ Frame.memberEnd (crc32 payload 0) 3 none)
    let source : Scheduled := ⟨data, []⟩
    ∃ requests last last',
      (new ⟨source, 0, []⟩).readOn (fun _ => 4096) 1 = ([], some .ended, last) ∧
      last.started = 0 ∧
      (new ⟨source, 65536, []⟩).readOn (fun _ => 4096) requests = (payload, some .ended, last') ∧
      last'.started = 1 := by
  intro payload data source
  have stream : IsStream data [payload] := by
    have alone := IsStream.cons (isMember_of_header (Deflate.inflates_store payload #[]) 6) .nil
    rwa [List.append_nil] at alone
  have verdict : verdictOn 0 data = ⟨payload, none, 1⟩ := stream.verdict 0
  obtain ⟨requests, reaches⟩ := reaches_verdict source.serves (show 0 < 65536 by decide)
    (fun _ => (by decide : 0 < 4096))
  rw [verdict] at reaches
  -- a buffer without capacity asks its source for nothing and takes the answer for the end
  have search : findMember (⟨source, 0, []⟩ : Buffered Scheduled) 0 = (.ended, ⟨source, 0, []⟩) := rfl
  have first : Source.read (new ⟨source, 0, []⟩) 4096 =
      (.delivered [], ⟨.between ⟨source, 0, []⟩, 0, true⟩) := by
    show readNext ⟨source, 0, []⟩ 0 4096 = _
    rw [readNext_eq, search]
  refine ⟨requests, ⟨.between ⟨source, 0, []⟩, 0, true⟩, _, ?_, rfl, ?_, reaches.members⟩
  · rw [readOn, first]
  · exact Prod.ext (reaches.complete fun same => by cases same) (Prod.ext reaches.stop rfl)

end Members

end ParallelGzip
