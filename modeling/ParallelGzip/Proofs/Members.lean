import ParallelGzip.Members
import ParallelGzip.Proofs.Member.Decoder

set_option autoImplicit false

/-! # Decoding written members

Of members that stand one behind the other a decoder delivers the payloads in their order, whatever
the sizes of the requests, and each byte while the number of members opened is that of its member.
`Members.Faces` says what a decoder still has before it; `Faces.delivers` is one request, and
`deliveries_of_isStream` all of them. -/

namespace ParallelGzip

open Deflate (Inflater Inflates)

/-! ## Streams -/

/-- A member with this payload, as it is written, whatever compression it announces. -/
def IsMember (member payload : Bytes) : Prop :=
  ∃ mark blocks, Inflates blocks #[] payload ∧ member = Frame.headerWithMark mark ++ (blocks ++
    Frame.memberEnd (crc32 payload 0) payload.length none)

/-- A member as it is written in blocks. -/
theorem isMember_of_header {blocks payload : Bytes} (inflates : Inflates blocks #[] payload)
    (level : Nat) :
    IsMember (Frame.header level ++ (blocks ++ Frame.memberEnd (crc32 payload 0) payload.length
      none)) payload :=
  ⟨_, blocks, inflates, rfl⟩

/-- A member as it is written as a whole. -/
theorem isMember_of_wholeHeader {blocks payload : Bytes} (inflates : Inflates blocks #[] payload)
    (level : Nat) :
    IsMember (Frame.wholeHeader level ++ (blocks ++ Frame.memberEnd (crc32 payload 0) payload.length
      none)) payload :=
  ⟨_, blocks, inflates, rfl⟩

/-- Members with these payloads, one behind the other. -/
inductive IsStream : Bytes → List Bytes → Prop
  | nil : IsStream [] []
  | cons {member payload stream : Bytes} {payloads : List Bytes} (first : IsMember member payload)
      (rest : IsStream stream payloads) : IsStream (member ++ stream) (payload :: payloads)

theorem IsStream.append {first second : Bytes} {payloads payloads' : List Bytes}
    (before : IsStream first payloads) (behind : IsStream second payloads') :
    IsStream (first ++ second) (payloads ++ payloads') := by
  induction before with
  | nil => exact behind
  | cons member rest ih =>
    rw [List.append_assoc]
    exact .cons member ih

theorem IsStream.concat {stream member payload : Bytes} {payloads : List Bytes}
    (before : IsStream stream payloads) (last : IsMember member payload) :
    IsStream (stream ++ member) (payloads ++ [payload]) := by
  have alone := IsStream.cons last .nil
  rw [List.append_nil] at alone
  exact before.append alone

/-- The bytes of these payloads, each with the number of its member. -/
def numbered (first : Nat) : List Bytes → List (Nat × UInt8)
  | [] => []
  | payload :: payloads => payload.map (first, ·) ++ numbered (first + 1) payloads

theorem map_snd_numbered (first : Nat) (payloads : List Bytes) :
    (numbered first payloads).map Prod.snd = payloads.flatten := by
  induction payloads generalizing first with
  | nil => rfl
  | cons payload payloads ih =>
    rw [numbered, List.map_append, ih, List.map_map, List.flatten_cons]
    exact congrArg (· ++ payloads.flatten) (List.map_id payload)

/-! ## Where a member begins -/

variable {b : Buffered NoSource} {payload behind : Bytes} {payloads : List Bytes}
  {started n total : Nat} {ahead : List (Nat × UInt8)}

theorem Buffered.fillBuffer_of_nil (none : b.buffer = []) :
    b.fillBuffer = (.delivered [], b) := by
  obtain ⟨source, capacity, buffer⟩ := b
  subst none
  rfl

/-- A member begins with a byte that is not padding. -/
theorem IsMember.exists_cons {member : Bytes} (isMember : IsMember member payload) :
    ∃ rest, member = 0x1f :: rest := by
  obtain ⟨mark, blocks, -, rfl⟩ := isMember
  exact ⟨_, rfl⟩

theorem skipPadding_eq {σ : Type} [Source σ] (b : Buffered σ) :
    skipPadding b =
      match b.fillBuffer with
      | (.delivered [], b') => (.ended, b')
      | (.delivered (c :: bytes), b') =>
        if ((c :: bytes).takeWhile (· = 0)).length < (c :: bytes).length then
          (.found, b'.consume ((c :: bytes).takeWhile (· = 0)).length)
        else skipPadding (b'.consume (c :: bytes).length)
      | (.interrupted cause, b') => (.interrupted cause, b')
      | (.failed cause, b') => (.failed cause, b')
      | (.panicked, b') => (.panicked, b') := by
  rw [skipPadding]
  split <;> next filled => rw [filled]

theorem findMember_of_cons {σ : Type} [Source σ] {b : Buffered σ} {rest : Bytes}
    (buffer : b.buffer = 0x1f :: rest) (started : Nat) : findMember b started = (.found, b) := by
  have filled := Buffered.fillBuffer_of_ne_nil (buffer ▸ List.cons_ne_nil _ _)
  rw [buffer] at filled
  rw [findMember, skipPadding_eq, filled]
  -- the first member is looked for in another way than the later ones
  split <;> rfl

theorem findMember_of_nil (none : b.buffer = []) (started : Nat) :
    findMember b started = (.ended, b) := by
  rw [findMember, skipPadding_eq, Buffered.fillBuffer_of_nil none]
  split <;> rfl

/-- A member is opened behind its header. -/
theorem openMember_of_isMember {σ : Type} [Source σ] {b : Buffered σ} {member : Bytes}
    (isMember : IsMember member payload) (buffer : b.buffer = member ++ behind) (n : Nat) :
    ∃ data, (Inflater.start #[]).Completes data payload behind ∧
      openMember b n = readBody (Inflater.start #[]) { b with buffer := data } n := by
  obtain ⟨mark, blocks, inflates, rfl⟩ := isMember
  refine ⟨_, completes_start inflates behind, ?_⟩
  have split : b.buffer = Frame.headerWithMark mark ++ (blocks ++ (Frame.emptyFinalBlock
      ++ (Frame.trailer (crc32 payload 0) payload.length ++ behind))) := by
    rw [buffer, Frame.memberEnd]
    simp only [List.append_assoc, List.nil_append]
  rw [openMember, Buffered.parse_of_reads (reads_headerWithMark mark) split]

/-! ## What is ahead -/

namespace Members

/-- A decoder that has these bytes before it, each with the number of its member, until it has
    opened so many members in all. -/
inductive Faces : Members NoSource → List (Nat × UInt8) → Nat → Prop
  | between {b : Buffered NoSource} {started : Nat} {payloads : List Bytes}
      (stream : IsStream b.buffer payloads) :
      Faces ⟨.between b, started, false⟩ (numbered (started + 1) payloads)
        (started + payloads.length)
  | inside {z : Inflater} {b : Buffered NoSource} {started : Nat} {payload behind : Bytes}
      {payloads : List Bytes} (completes : z.Completes b.buffer payload behind)
      (stream : IsStream behind payloads) :
      Faces ⟨.inside (.body z) b, started, false⟩
        (payload.map (started, ·) ++ numbered (started + 1) payloads) (started + payloads.length)
  | ended (b : Buffered NoSource) (started : Nat) : Faces ⟨.between b, started, true⟩ [] started

/-- A request has been answered with a piece of what was ahead; nothing is the answer only at the
    end. -/
def Delivers (ahead : List (Nat × UInt8)) (total : Nat) (answer : ReadResult × Members NoSource) :
    Prop :=
  ∃ chunk later, answer.1 = .delivered chunk ∧
    ahead = chunk.map (answer.2.started, ·) ++ later ∧ answer.2.Faces later total ∧
    (chunk = [] → answer.2.finished = true)

/-- At the end nothing is ahead. -/
theorem Faces.of_finished {m : Members NoSource} (faces : m.Faces ahead total)
    (finished : m.finished = true) : ahead = [] ∧ m.started = total := by
  cases faces with
  | between stream => cases finished
  | inside completes stream => cases finished
  | ended b started => exact ⟨rfl, rfl⟩

theorem readNext_eq {σ : Type} [Source σ] (b : Buffered σ) (started n : Nat) :
    readNext b started n =
      match findMember b started with
      | (.found, b') =>
        match openMember b' n with
        | .result result holding => (result, ⟨holding, started + 1, false⟩)
        | .ended b'' => readNext b'' (started + 1) n
        | .lostSource => (.panicked, ⟨.lost, started, false⟩)
      | (.ended, b') => (.delivered [], ⟨.between b', started, true⟩)
      | (.interrupted cause, b') => (.interrupted cause, ⟨.between b', started, false⟩)
      | (.failed cause, b') => (.failed cause, ⟨.between b', started, false⟩)
      | (.panicked, b') => (.panicked, ⟨.between b', started, false⟩) := by
  rw [readNext]
  split
  · next search =>
    rw [search]
    split <;> next opened => simp only [opened]
  all_goals
    next search => rw [search]

/-- Members without payload are passed over. -/
theorem delivers_readNext {stream : Bytes} (isStream : IsStream stream payloads)
    (buffer : b.buffer = stream) (pos : 0 < n) :
    Delivers (numbered (started + 1) payloads) (started + payloads.length)
      (readNext b started n) := by
  induction isStream generalizing b started with
  | nil =>
    rw [readNext_eq, findMember_of_nil buffer started]
    exact ⟨[], [], rfl, rfl, .ended b started, fun _ => rfl⟩
  | @cons member payload stream payloads first rest ih =>
    have counts : started + (payload :: payloads).length = started + 1 + payloads.length := by
      rw [List.length_cons]
      omega
    rw [counts]
    have search : findMember b started = (.found, b) := by
      obtain ⟨more, hmore⟩ := first.exists_cons
      exact findMember_of_cons (by rw [buffer, hmore, List.cons_append]) started
    obtain ⟨data, completes, opens⟩ := openMember_of_isMember first buffer n
    rcases readBody_of_completes (b := { b with buffer := data }) completes pos with
      ⟨rfl, body⟩ | ⟨z', data', chunk, later, some, rfl, body, completes'⟩
    -- the payload is empty: the request goes on to the next member
    · rw [readNext_eq, search]
      dsimp only
      rw [opens.trans body]
      exact ih rfl
    · rw [readNext_eq, search]
      dsimp only
      rw [opens.trans body]
      refine ⟨chunk, _, rfl, ?_, .inside completes' rest, fun none => absurd none some⟩
      rw [numbered, List.map_append, List.append_assoc]

/-- A request for something. -/
theorem Faces.delivers {m : Members NoSource} (faces : m.Faces ahead total) (pos : 0 < n) :
    Delivers ahead total (Source.read m n) := by
  show Delivers ahead total (m.read n)
  have ask : n ≠ 0 := by omega
  cases faces with
  | between stream =>
    rw [Members.read, if_neg ask]
    exact delivers_readNext stream rfl pos
  | @inside z b started payload behind payloads completes stream =>
    rw [Members.read, if_neg ask, readInside]
    rcases readBody_of_completes completes pos with
      ⟨rfl, body⟩ | ⟨z', data', chunk, later, some, rfl, body, completes'⟩
    · rw [body]
      exact delivers_readNext stream rfl pos
    · rw [body]
      refine ⟨chunk, _, rfl, ?_, .inside completes' stream, fun none => absurd none some⟩
      rw [List.map_append, List.append_assoc]
  | ended b started =>
    rw [Members.read, if_neg ask]
    exact ⟨[], [], rfl, rfl, .ended b _, fun _ => rfl⟩

/-! ## All requests -/

/-- What requests of these sizes deliver, each byte with the number of members opened by then, and
    the decoder they leave. Nothing is the result if one of them is not answered with bytes. -/
def deliveries {σ : Type} [Source σ] (m : Members σ) :
    List Nat → Option (List (Nat × UInt8) × Members σ)
  | [] => some ([], m)
  | n :: requests =>
    match Source.read m n with
    | (.delivered chunk, m') =>
      (m'.deliveries requests).map fun (bytes, last) => (chunk.map (m'.started, ·) ++ bytes, last)
    | _ => none

/-- Requests deliver what is ahead from its beginning, and at least a byte each up to the end. -/
theorem Faces.deliveries {m : Members NoSource} (faces : m.Faces ahead total) {requests : List Nat}
    (pos : ∀ n ∈ requests, 0 < n) :
    ∃ bytes later last, m.deliveries requests = some (bytes, last) ∧ ahead = bytes ++ later ∧
      last.Faces later total ∧ (last.finished = true ∨ requests.length ≤ bytes.length) := by
  induction requests generalizing m ahead with
  | nil => exact ⟨[], ahead, m, rfl, rfl, faces, .inr (Nat.le_refl _)⟩
  | cons n requests ih =>
    obtain ⟨chunk, next, result, hahead, faces', ends⟩ := faces.delivers (pos n List.mem_cons_self)
    rcases hread : Source.read m n with ⟨answer, m'⟩
    rw [hread] at result hahead faces' ends
    dsimp only at result hahead faces' ends
    subst result
    obtain ⟨bytes, later, last, hrest, hnext, facesLast, enough⟩ :=
      ih faces' fun n hn => pos n (List.mem_cons_of_mem _ hn)
    refine ⟨chunk.map (m'.started, ·) ++ bytes, later, last, ?_, ?_, facesLast, ?_⟩
    · rw [Members.deliveries, hread]
      dsimp only
      rw [hrest]
      rfl
    · rw [hahead, hnext, List.append_assoc]
    -- an answer without bytes is the end, and then there is nothing more to be delivered
    · by_cases none : chunk = []
      · obtain ⟨rfl, -⟩ := faces'.of_finished (ends none)
        obtain ⟨rfl, rfl⟩ := List.append_eq_nil_iff.1 hnext.symm
        refine .inl (enough.elim id ?_)
        intro all
        rw [List.length_eq_zero_iff.1 (Nat.le_zero.1 all)] at hrest
        cases hrest
        exact ends none
      · have some := List.length_pos_iff.2 none
        refine enough.imp_right ?_
        intro enough
        rw [List.length_cons, List.length_append, List.length_map]
        omega

/-- More requests than there are bytes deliver all of them and find the end. -/
theorem deliveries_of_isStream {data : Bytes} (stream : IsStream data payloads) (capacity : Nat)
    {requests : List Nat} (pos : ∀ n ∈ requests, 0 < n)
    (enough : payloads.flatten.length < requests.length) :
    ∃ last, (Members.new (σ := NoSource) ⟨.mk, capacity, data⟩).deliveries requests =
        some (numbered 1 payloads, last) ∧
      last.finished = true ∧ last.started = payloads.length := by
  have faces : (Members.new (σ := NoSource) ⟨.mk, capacity, data⟩).Faces (numbered 1 payloads)
      (0 + payloads.length) := .between stream
  obtain ⟨bytes, later, last, hrequests, hahead, facesLast, ends⟩ := faces.deliveries pos
  have count := congrArg (List.length ∘ List.map Prod.snd) hahead
  simp only [Function.comp_apply, map_snd_numbered, List.length_map, List.length_append] at count
  have finished : last.finished = true := ends.resolve_right (by omega)
  obtain ⟨rfl, hstarted⟩ := facesLast.of_finished finished
  rw [List.append_nil] at hahead
  rw [Nat.zero_add] at hstarted
  exact ⟨last, hahead ▸ hrequests, finished, hstarted⟩

/-- Reading on to the end, with requests for as many bytes as one likes. -/
theorem Faces.readToEnd {m : Members NoSource} (faces : m.Faces ahead total) (pos : 0 < n)
    (before : Array UInt8) :
    ∃ last, Source.readToEnd m n before = (before ++ ahead.map Prod.snd, .ended, last) := by
  fun_induction Source.readToEnd m n before generalizing ahead with
  | case1 m before m' hread =>
    obtain ⟨chunk, later, result, rfl, faces', ends⟩ := faces.delivers pos
    rw [hread] at result faces' ends
    cases result
    obtain ⟨rfl, -⟩ := faces'.of_finished (ends rfl)
    exact ⟨m', by simp⟩
  | case2 m before c bytes m' hread ih =>
    obtain ⟨chunk, later, result, rfl, faces', -⟩ := faces.delivers pos
    rw [hread] at result faces' ⊢
    cases result
    obtain ⟨last, hlast⟩ := ih faces'
    refine ⟨last, hlast.trans ?_⟩
    congr 1
    exact Array.toList_inj.1 (by simp [Function.comp_def])
  -- no request is answered in another way
  | case3 m before cause m' hread | case4 m before cause m' hread | case5 m before m' hread =>
    obtain ⟨chunk, later, result, -⟩ := faces.delivers pos
    rw [hread] at result
    cases result

end Members

/-- The data decodes to these payloads. Requests of any sizes deliver each byte while the number of
    members opened is that of its member, and find the end when as many members have been opened as
    there are payloads. -/
structure Decodes (data : Bytes) (payloads : List Bytes) : Prop where
  whole : decompress data = .ok payloads.flatten
  members : ∀ (capacity : Nat) (requests : List Nat), (∀ n ∈ requests, 0 < n) →
    payloads.flatten.length < requests.length →
      ∃ last, (Members.new (σ := NoSource) ⟨.mk, capacity, data⟩).deliveries requests =
          some (numbered 1 payloads, last) ∧
        last.finished = true ∧ last.started = payloads.length

theorem IsStream.decodes {data : Bytes} (stream : IsStream data payloads) :
    Decodes data payloads where
  whole := by
    have faces : (Members.new (σ := NoSource) ⟨.mk, 0, data⟩).Faces (numbered 1 payloads)
        (0 + payloads.length) := .between stream
    obtain ⟨last, hread⟩ := faces.readToEnd (show 0 < 65536 by decide) #[]
    rw [decompress, hread, map_snd_numbered]
    simp
  members := fun capacity _ => Members.deliveries_of_isStream stream capacity

end ParallelGzip
