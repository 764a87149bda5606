import ParallelGzip.Proofs.WholeMembers

set_option autoImplicit false

/-! # Chains: what one party alone would write

A chain carries out requests without lanes, queues and workers: it cuts what is submitted into
blocks, compresses each of them with the end of the block before it in the member as dictionary,
one behind the other, and ends members where this is asked for. It stops at the first block that
cannot be compressed. A `Plan` is the list of entries that a writer submits for the same requests;
`Plan.chain_asked` says that a chain along these entries is the chain of the requests, and
`Chain.written_isPrefix` that entries of which something has become are written as in the chain.

What becomes of a block is a function `code` of the block and its dictionary here, and
`BlockCompressor.Computes` says of a compressor that it computes this function, whatever it has
been given before. -/

namespace ParallelGzip

/-! ## Pieces of data -/

/-- Data cut into pieces of a size, of which the last one may be shorter. -/
def piecesOf (size : Nat) (data : Bytes) : List Bytes :=
  if data = [] ∨ size = 0 then [] else data.take size :: piecesOf size (data.drop size)
termination_by data.length
decreasing_by
  next some =>
    rw [List.length_drop]
    have := List.length_pos_iff.2 (not_or.1 some).1
    have := (not_or.1 some).2
    omega

theorem piecesOf_nil (size : Nat) : piecesOf size [] = [] := by
  rw [piecesOf, if_pos (.inl rfl)]

theorem piecesOf_of_ne_nil {size : Nat} {data : Bytes} (pos : 0 < size) (nonempty : data ≠ []) :
    piecesOf size data = data.take size :: piecesOf size (data.drop size) := by
  rw [piecesOf, if_neg (by rintro (none | zero) <;> [exact nonempty none; omega])]

theorem length_le_of_mem_piecesOf {size : Nat} {data piece : Bytes}
    (mem : piece ∈ piecesOf size data) : piece.length ≤ size := by
  fun_induction piecesOf size data with
  | case1 => cases mem
  | case2 data some ih =>
    rcases List.mem_cons.1 mem with rfl | later
    · exact List.length_take_le _ _
    · exact ih later

/-! ## Chains -/

/-- A party that compresses blocks one behind the other. -/
structure Chain where
  /-- What it has written behind the header of the first member. -/
  output : Bytes
  /-- The checksum of the member so far. -/
  crc : UInt32
  /-- The length of the member so far. -/
  size : Nat
  /-- The block before in the member, empty at its start. -/
  previous : Bytes

namespace Chain

variable (code : Bytes → Bytes → CompressResult)

/-- Before the first request. -/
def start : Chain := ⟨[], 0, 0, []⟩

/-- Compress a block with a dictionary. The chain stops where it is if this fails. -/
def compress (c : Chain) (data dictionary : Bytes) : Except Chain Chain :=
  match code data dictionary with
  | .block compressed =>
    .ok ⟨c.output ++ compressed.data, Crc32.combine c.crc compressed.crc compressed.length,
      c.size + compressed.length, data⟩
  | .failed _ | .panicked => .error c

/-- The next block of a member has the end of the block before as dictionary. -/
def block (c : Chain) (data : Bytes) : Except Chain Chain :=
  c.compress code data (windowOf c.previous)

/-- End the member, and begin another one of this level if there is to be one. -/
def memberEnd (c : Chain) (next : Option Nat) : Chain :=
  ⟨c.output ++ Frame.memberEnd c.crc c.size next, 0, 0, []⟩

/-- Carry out a call. -/
def ask (level blockSize : Nat) (c : Chain) : Call → Except Chain Chain
  | .submit data => (piecesOf blockSize data).foldlM (block code) c
  | .flush => .ok (c.memberEnd (some level))
  | .close => .ok (c.memberEnd none)

/-- Carry out requests, one after the other. -/
def carryOut (level blockSize : Nat) (requests : List Request) : Except Chain Chain :=
  requests.foldlM (fun c r => c.ask code level blockSize r.call) start

/-- How far a chain has come, whether it has stopped or not. -/
def reached : Except Chain Chain → Chain
  | .ok c => c
  | .error c => c

end Chain

/-! ## Plans -/

/-- The entries that a writer is to submit. -/
structure Plan where
  entries : List Entry
  /-- The block before in the member, empty at its start. -/
  previous : Bytes
  /-- Blocks so far. -/
  blocks : Nat

namespace Plan

/-- Before the first request. -/
def empty : Plan := ⟨[], [], 0⟩

/-- Another block of the member. -/
def block (p : Plan) (data : Bytes) : Plan :=
  ⟨p.entries ++ [.block p.blocks data (windowOf p.previous)], data, p.blocks + 1⟩

/-- Data to be cut into blocks. -/
def submit (blockSize : Nat) (p : Plan) (data : Bytes) : Plan :=
  (piecesOf blockSize data).foldl block p

/-- The end of the member. -/
def memberEnd (p : Plan) (next : Option Nat) : Plan :=
  ⟨p.entries ++ [.memberEnd next], [], p.blocks⟩

/-- What a call adds. -/
def ask (level blockSize : Nat) (p : Plan) : Call → Plan
  | .submit data => p.submit blockSize data
  | .flush => p.memberEnd (some level)
  | .close => p.memberEnd none

/-- What requests come to, one after the other. -/
def asked (level blockSize : Nat) (requests : List Request) : Plan :=
  requests.foldl (fun p r => p.ask level blockSize r.call) empty

theorem asked_concat (level blockSize : Nat) (requests : List Request) (r : Request) :
    asked level blockSize (requests ++ [r]) =
      (asked level blockSize requests).ask level blockSize r.call := by
  rw [asked, List.foldl_append]
  rfl

theorem submit_nil (blockSize : Nat) (p : Plan) : p.submit blockSize [] = p := by
  rw [submit, piecesOf_nil, List.foldl_nil]

theorem submit_of_ne_nil {blockSize : Nat} {data : Bytes} (pos : 0 < blockSize)
    (nonempty : data ≠ []) (p : Plan) :
    p.submit blockSize data =
      (p.block (data.take blockSize)).submit blockSize (data.drop blockSize) := by
  rw [submit, piecesOf_of_ne_nil pos nonempty, List.foldl_cons, submit]

/-! ### Plans grow at their end -/

theorem entries_isPrefix_blocks (p : Plan) (pieces : List Bytes) :
    p.entries <+: (pieces.foldl block p).entries := by
  induction pieces generalizing p with
  | nil => exact List.prefix_rfl
  | cons piece pieces ih => exact (List.prefix_append _ _).trans (ih (p.block piece))

theorem entries_isPrefix_ask (level blockSize : Nat) (p : Plan) (call : Call) :
    p.entries <+: (p.ask level blockSize call).entries := by
  cases call with
  | submit data => exact p.entries_isPrefix_blocks _
  | flush | close => exact List.prefix_append _ _

end Plan

/-! ## A chain along the entries of a plan -/

namespace Chain

variable (code : Bytes → Bytes → CompressResult)

/-- Go on with an entry, which has its dictionary with it. -/
def goOn (c : Chain) : Entry → Except Chain Chain
  | .block _ data dictionary => c.compress code data dictionary
  | .memberEnd next => .ok (c.memberEnd next)

/-- Go on with some entries. -/
def along (c : Chain) (entries : List Entry) : Except Chain Chain :=
  entries.foldlM (goOn code) c

theorem along_concat (c : Chain) (entries : List Entry) (entry : Entry) :
    c.along code (entries ++ [entry]) = c.along code entries >>= fun c' => c'.goOn code entry := by
  simp only [along, List.foldlM_append, List.foldlM_cons, List.foldlM_nil, bind_pure]

variable {code}

theorem previous_of_compress {c c' : Chain} {data dictionary : Bytes}
    (made : c.compress code data dictionary = .ok c') : c'.previous = data := by
  rw [compress] at made
  split at made
  · cases made
    rfl
  · cases made
  · cases made

/-- A chain that has come along the entries of a plan: unless it has stopped, it is at the same block
    as the plan. -/
def StandsAt (code : Bytes → Bytes → CompressResult) (p : Plan) (x : Except Chain Chain) : Prop :=
  start.along code p.entries = x ∧ ∀ c, x = .ok c → c.previous = p.previous

namespace StandsAt

variable {p : Plan} {x : Except Chain Chain}

theorem block (stands : StandsAt code p x) (data : Bytes) :
    StandsAt code (p.block data) (x >>= fun c => c.block code data) := by
  obtain ⟨rfl, same⟩ := stands
  constructor
  · refine (along_concat code start p.entries _).trans ?_
    cases result : start.along code p.entries with
    | error c => simp only [bind, Except.bind]
    | ok c => exact congrArg (c.compress code data) (congrArg windowOf (same c result).symm)
  · intro c' made
    cases result : start.along code p.entries with
    | error c =>
      rw [result] at made
      cases made
    | ok c =>
      rw [result] at made
      exact previous_of_compress made

theorem blocks (stands : StandsAt code p x) (pieces : List Bytes) :
    StandsAt code (pieces.foldl Plan.block p)
      (x >>= fun c => pieces.foldlM (Chain.block code) c) := by
  induction pieces generalizing p x with
  | nil =>
    simp only [List.foldl_nil, List.foldlM_nil, bind_pure]
    exact stands
  | cons piece pieces ih =>
    have later := ih (stands.block piece)
    simp only [List.foldl_cons, List.foldlM_cons]
    rw [bind_assoc] at later
    exact later

theorem memberEnd (stands : StandsAt code p x) (next : Option Nat) :
    StandsAt code (p.memberEnd next) (x >>= fun c => .ok (c.memberEnd next)) := by
  obtain ⟨rfl, -⟩ := stands
  constructor
  · exact along_concat code start p.entries _
  · intro c' made
    cases result : start.along code p.entries with
    | error c =>
      rw [result] at made
      cases made
    | ok c =>
      rw [result] at made
      cases made
      rfl

theorem ask (stands : StandsAt code p x) (level blockSize : Nat) (call : Call) :
    StandsAt code (p.ask level blockSize call)
      (x >>= fun c => c.ask code level blockSize call) := by
  cases call with
  | submit data => exact stands.blocks _
  | flush => exact stands.memberEnd _
  | close => exact stands.memberEnd _

end StandsAt

theorem carryOut_concat (code : Bytes → Bytes → CompressResult) (level blockSize : Nat)
    (requests : List Request) (r : Request) :
    carryOut code level blockSize (requests ++ [r]) =
      carryOut code level blockSize requests >>= fun c => c.ask code level blockSize r.call := by
  simp only [carryOut, List.foldlM_append, List.foldlM_cons, List.foldlM_nil, bind_pure]

theorem standsAt_asked (code : Bytes → Bytes → CompressResult) (level blockSize : Nat)
    (requests : List Request) :
    StandsAt code (Plan.asked level blockSize requests) (carryOut code level blockSize requests) := by
  induction requests using List.reverseRecOn with
  | nil =>
    refine ⟨rfl, ?_⟩
    intro c begun
    cases begun
    rfl
  | append_singleton requests r ih =>
    rw [Plan.asked_concat, carryOut_concat]
    exact ih.ask level blockSize r.call

/-- Along the entries of the plan a chain comes to what it comes to with the requests. -/
theorem along_asked (code : Bytes → Bytes → CompressResult) (level blockSize : Nat)
    (requests : List Request) :
    start.along code (Plan.asked level blockSize requests).entries =
      carryOut code level blockSize requests := (standsAt_asked code level blockSize requests).1

end Chain

/-! ## What becomes of entries -/

/-- What becomes of an entry if its block can be compressed. -/
def Entry.renderBy (code : Bytes → Bytes → CompressResult) : Entry → Option Rendered
  | .block number data dictionary =>
    match code data dictionary with
    | .block compressed => some (.block number compressed)
    | .failed _ | .panicked => none
  | .memberEnd next => some (.memberEnd next)

namespace Chain

variable {code : Bytes → Bytes → CompressResult} {c : Chain} {entry : Entry} {entries : List Entry}
  {made : List Rendered} {part : Bytes}

/-- Checksum and length of the member so far. -/
def tally (c : Chain) : Tally := ⟨c.crc, c.size⟩

theorem goOn_of_renderBy {rendered : Rendered} (becomes : entry.renderBy code = some rendered)
    (c : Chain) :
    ∃ c', c.goOn code entry = .ok c' ∧ c'.output = c.output ++ c.tally.bytes rendered ∧
      c'.tally = c.tally.add rendered := by
  cases entry with
  | memberEnd next =>
    cases becomes
    exact ⟨_, rfl, rfl, rfl⟩
  | block number data dictionary =>
    rw [Entry.renderBy] at becomes
    split at becomes
    · next compressed result =>
      cases becomes
      refine ⟨⟨c.output ++ compressed.data, Crc32.combine c.crc compressed.crc compressed.length,
        c.size + compressed.length, data⟩, ?_, rfl, rfl⟩
      rw [goOn, compress, result]
    · cases becomes
    · cases becomes

/-- A chain goes on exactly if something becomes of the entry. -/
theorem exists_renderBy_of_goOn {c' : Chain} (goes : c.goOn code entry = .ok c') :
    ∃ rendered, entry.renderBy code = some rendered := by
  cases entry with
  | memberEnd next => exact ⟨_, rfl⟩
  | block number data dictionary =>
    rw [goOn, compress] at goes
    split at goes
    · next compressed result =>
      refine ⟨.block number compressed, ?_⟩
      rw [Entry.renderBy, result]
    · cases goes
    · cases goes

theorem along_cons (code : Bytes → Bytes → CompressResult) (c : Chain) (entry : Entry)
    (entries : List Entry) :
    c.along code (entry :: entries) = c.goOn code entry >>= fun c' => c'.along code entries :=
  List.foldlM_cons

theorem exists_renderBy_of_along {c' : Chain} (goes : c.along code entries = .ok c') :
    ∀ entry ∈ entries, ∃ rendered, entry.renderBy code = some rendered := by
  induction entries generalizing c with
  | nil => exact nofun
  | cons entry entries ih =>
    rw [along_cons] at goes
    cases first : c.goOn code entry with
    | error stopped =>
      rw [first] at goes
      cases goes
    | ok next =>
      rw [first] at goes
      intro found mem
      rcases List.mem_cons.1 mem with rfl | later
      · exact exists_renderBy_of_goOn first
      · exact ih goes found later

/-- Along entries of which something becomes the chain writes what becomes of them. -/
theorem exists_along_of_renderBy
    (becomes : List.Forall₂ (fun rendered entry => entry.renderBy code = some rendered)
      made entries) (c : Chain) :
    ∃ c', c.along code entries = .ok c' ∧ c'.output = c.output ++ c.tally.stitch made ∧
      c'.tally = c.tally.addAll made := by
  induction becomes generalizing c with
  | nil => exact ⟨c, rfl, (List.append_nil _).symm, rfl⟩
  | @cons rendered entry made entries first rest ih =>
    obtain ⟨c', goes, output, tally⟩ := goOn_of_renderBy first c
    obtain ⟨c'', later, output', tally'⟩ := ih c'
    refine ⟨c'', ?_, ?_, ?_⟩
    · rw [along_cons, goes]
      exact later
    · rw [output', output, tally, List.append_assoc]
      rfl
    · rw [tally', tally]
      rfl

/-- A chain never takes back what it has written. -/
theorem output_isPrefix_along (code : Bytes → Bytes → CompressResult) (c : Chain)
    (entries : List Entry) : c.output <+: (reached (c.along code entries)).output := by
  induction entries generalizing c with
  | nil => exact List.prefix_rfl
  | cons entry entries ih =>
    rw [along_cons]
    cases entry with
    | memberEnd next => exact (List.prefix_append _ _).trans (ih (c.memberEnd next))
    | block number data dictionary =>
      rw [goOn, compress]
      split
      · next compressed _ =>
        let c' : Chain := ⟨c.output ++ compressed.data,
          Crc32.combine c.crc compressed.crc compressed.length, c.size + compressed.length, data⟩
        exact List.IsPrefix.trans (List.prefix_append _ _) (ih c')
      · exact List.prefix_rfl
      · exact List.prefix_rfl

/-- What has become of entries by number has become of the entries in front. -/
theorem forall₂_renderBy
    (becomes : ∀ p, p < made.length → entries[p]?.bind (Entry.renderBy code) = made[p]?) :
    List.Forall₂ (fun rendered entry => entry.renderBy code = some rendered) made
      (entries.take made.length) := by
  have live : ∀ p, p < made.length → p < entries.length := by
    intro p hp
    have found := becomes p hp
    rw [List.getElem?_eq_getElem hp] at found
    obtain ⟨entry, there, -⟩ := Option.bind_eq_some_iff.1 found
    exact (List.getElem?_eq_some_iff.1 there).1
  refine List.forall₂_iff_get.2 ⟨?_, ?_⟩
  · rw [List.length_take]
    cases short : made.length with
    | zero => simp
    | succ k =>
      have := live k (by omega)
      omega
  · intro p hp hp'
    have found := becomes p hp
    rw [List.getElem?_eq_getElem hp, List.getElem?_eq_getElem (live p hp)] at found
    simpa using found

/-- What has become of the first entries is the beginning of what the chain writes. -/
theorem stitch_isPrefix
    (becomes : ∀ p, p < made.length → entries[p]?.bind (Entry.renderBy code) = made[p]?) :
    Tally.zero.stitch made <+: (reached (start.along code entries)).output := by
  obtain ⟨c', goes, output, -⟩ := exists_along_of_renderBy (forall₂_renderBy becomes) start
  have grows := output_isPrefix_along code c' (entries.drop made.length)
  have split : start.along code entries = start.along code (entries.take made.length) >>= fun c =>
      c.along code (entries.drop made.length) := by
    rw [along, ← List.take_append_drop made.length entries, List.foldlM_append,
      List.take_append_drop]
    rfl
  rw [split, goes]
  rw [output] at grows
  exact grows

/-- What has become of the first entries, and a part of what becomes of the next, is the beginning of
    what the chain writes. -/
theorem written_isPrefix
    (becomes : ∀ p, p < made.length → entries[p]?.bind (Entry.renderBy code) = made[p]?)
    (next : part = [] ∨ ∃ rendered,
      entries[made.length]?.bind (Entry.renderBy code) = some rendered ∧
        part <+: (Tally.zero.addAll made).bytes rendered) :
    Tally.zero.stitch made ++ part <+: (reached (start.along code entries)).output := by
  rcases next with rfl | ⟨rendered, found, isPrefix⟩
  · rw [List.append_nil]
    exact stitch_isPrefix becomes
  · have longer : ∀ p, p < (made ++ [rendered]).length →
        entries[p]?.bind (Entry.renderBy code) = (made ++ [rendered])[p]? := by
      intro p hp
      rw [List.length_append, List.length_singleton] at hp
      rcases Nat.lt_or_eq_of_le (Nat.le_of_lt_succ hp) with before | rfl
      · rw [becomes p before, List.getElem?_append_left before]
      · rw [found, List.getElem?_concat_length]
    refine List.IsPrefix.trans ?_ (stitch_isPrefix longer)
    rw [Tally.stitch_append_singleton]
    exact (List.prefix_append_right_inj _).2 isPrefix

end Chain

/-! ## Compressors that compute a function -/

namespace BlockCompressor

variable {κ : Type} [BlockCompressor κ] {code : Bytes → Bytes → CompressResult} {c after : κ}
  {entry : Entry} {entries : List Entry} {compressors : List κ}

/-- Whatever a compressor has been given before, what becomes of a block depends on the block and its
    dictionary alone, as `code` says. -/
def Computes (c : κ) (code : Bytes → Bytes → CompressResult) : Prop :=
  ∀ jobs raw dictionary, (compress (feed c jobs) raw dictionary).1 = code raw dictionary

theorem Computes.next (computes : Computes c code) (raw dictionary : Bytes) :
    Computes (compress c raw dictionary).2 code := fun jobs => computes ((raw, dictionary) :: jobs)

theorem Computes.renderBy {rendered : Rendered} (computes : Computes c code)
    (made : compressEntry c entry = some (rendered, after)) :
    entry.renderBy code = some rendered ∧ Computes after code := by
  cases entry with
  | memberEnd next =>
    cases made
    exact ⟨rfl, computes⟩
  | block number data dictionary =>
    have now : (compress c data dictionary).1 = code data dictionary := computes [] data dictionary
    have later := computes.next data dictionary
    rw [compressEntry] at made
    split at made
    · next compressed after' result =>
      cases made
      rw [result] at now later
      refine ⟨?_, later⟩
      rw [Entry.renderBy, ← now]
    · cases made

theorem Computes.exists_compressEntry (computes : Computes c code)
    (becomes : ∃ rendered, entry.renderBy code = some rendered) :
    ∃ rendered after, compressEntry c entry = some (rendered, after) ∧ Computes after code := by
  cases entry with
  | memberEnd next => exact ⟨_, c, rfl, computes⟩
  | block number data dictionary =>
    obtain ⟨rendered, becomes⟩ := becomes
    have now : (compress c data dictionary).1 = code data dictionary := computes [] data dictionary
    rw [Entry.renderBy, ← now] at becomes
    have later := computes.next data dictionary
    rw [compressEntry]
    cases result : compress c data dictionary with
    | mk outcome after =>
      rw [result] at becomes later
      cases outcome with
      | block compressed => exact ⟨_, after, rfl, later⟩
      | failed cause => cases becomes
      | panicked => cases becomes

theorem Computes.exists_compressEntries (computes : Computes c code)
    (becomes : ∀ entry ∈ entries, ∃ rendered, entry.renderBy code = some rendered) :
    ∃ made after, compressEntries c entries = some (made, after) := by
  induction entries generalizing c with
  | nil => exact ⟨[], c, rfl⟩
  | cons entry entries ih =>
    obtain ⟨rendered, after, first, keeps⟩ :=
      computes.exists_compressEntry (becomes entry List.mem_cons_self)
    obtain ⟨made, last, rest⟩ := ih keeps fun e he => becomes e (List.mem_cons_of_mem _ he)
    refine ⟨rendered :: made, last, ?_⟩
    rw [compressEntries, first]
    dsimp only
    rw [rest]

/-- On whatever lane an entry is compressed, the same becomes of it. -/
theorem renderBy_of_rendering {p : Nat} {rendered : Rendered}
    (computes : ∀ c ∈ compressors, Computes c code)
    (made : rendering compressors entries p = some rendered) :
    entries[p]?.bind (Entry.renderBy code) = some rendered := by
  obtain ⟨entry, found, becomes⟩ := exists_entry_of_rendering
    (R := fun rendered entry => entry.renderBy code = some rendered)
    (I := fun c => Computes c code)
    (fun c entry rendered c' keeps made => keeps.renderBy made) computes made
  rw [found]
  exact becomes

/-- Something becomes of every entry, on whatever lane, if it does so of each by itself. -/
theorem rendering_ne_none {p : Nat} (nonempty : compressors ≠ [])
    (computes : ∀ c ∈ compressors, Computes c code)
    (becomes : ∀ entry ∈ entries, ∃ rendered, entry.renderBy code = some rendered)
    (live : p < entries.length) : rendering compressors entries p ≠ none := by
  have pos : 0 < compressors.length := List.length_pos_iff.2 nonempty
  have turn := Nat.mod_lt p pos
  intro none
  have given : ∀ entry ∈ (turns compressors.length (p % compressors.length) entries).take
      (p / compressors.length + 1), ∃ rendered, entry.renderBy code = some rendered :=
    fun entry mem => becomes entry (mem_of_mem_turns (List.mem_of_mem_take mem))
  obtain ⟨made, after, result⟩ := (computes _ (List.getElem_mem turn)).exists_compressEntries given
  rw [rendering, List.getElem?_eq_getElem turn] at none
  dsimp only at none
  rw [result] at none
  dsimp only at none
  rw [List.getElem?_eq_none_iff, length_of_compressEntries result, List.length_take] at none
  have found := getElem?_turns pos entries p
  rw [List.getElem?_eq_getElem live] at found
  have := (List.getElem?_eq_some_iff.1 found).1
  omega

end BlockCompressor

/-! ## Compressors of the library -/

namespace DeflateCompressor

open BlockCompressor (feed Computes)

variable {level blockSize : Nat}

/-- What a compressor of the library makes of a block. -/
def code (c : DeflateCompressor) (raw dictionary : Bytes) : CompressResult :=
  (BlockCompressor.compress c raw dictionary).1

theorem feed_eq (c : DeflateCompressor) (jobs : List (Bytes × Bytes)) : feed c jobs = c := by
  induction jobs generalizing c with
  | nil => rfl
  | cons job jobs ih =>
    refine (ih _).trans ?_
    simp only [BlockCompressor.compress]
    split <;> rfl

/-- Nothing of a block stays with the compressors of the library. -/
theorem computes (c : DeflateCompressor) : Computes c c.code := by
  intro jobs raw dictionary
  rw [feed_eq]
  rfl

/-- With the room that goes with the block size, the chain of the library never stops. -/
theorem exists_carryOut (level blockSize : Nat) (requests : List Request) :
    ∃ chain, Chain.carryOut (mk level (compressBufferSize blockSize)).code level blockSize requests =
      .ok chain := by
  have blocks : ∀ (pieces : List Bytes) (c : Chain), (∀ piece ∈ pieces, piece.length ≤ blockSize) →
      ∃ c', pieces.foldlM (Chain.block (mk level (compressBufferSize blockSize)).code) c = .ok c' := by
    intro pieces
    induction pieces with
    | nil => exact fun c _ => ⟨c, rfl⟩
    | cons piece pieces ih =>
      intro c fits
      have made := @compress_eq level blockSize piece (fits piece List.mem_cons_self)
        (windowOf c.previous)
      obtain ⟨c', goes⟩ := ih _ fun p hp => fits p (List.mem_cons_of_mem _ hp)
      refine ⟨c', ?_⟩
      rw [List.foldlM_cons, Chain.block, Chain.compress, code, made]
      exact goes
  induction requests using List.reverseRecOn with
  | nil => exact ⟨Chain.start, rfl⟩
  | append_singleton requests r ih =>
    obtain ⟨chain, goes⟩ := ih
    rw [Chain.carryOut_concat, goes]
    cases r with
    | submit data => exact blocks _ chain fun piece => length_le_of_mem_piecesOf
    | flushMember | close | finish | drop => exact ⟨_, rfl⟩

end DeflateCompressor

namespace ScriptedCompressor

open BlockCompressor (feed Computes)

/-- A compressor that stores blocks keeps nothing of them but their number. -/
theorem computes_stored (worker : Nat) : Computes (mk .stored worker 0) fun raw dictionary =>
    (BlockCompressor.compress (mk .stored worker 0) raw dictionary).1 := by
  intro jobs raw dictionary
  have codec := codec_feed (mk .stored worker 0) jobs
  generalize feed (mk .stored worker 0) jobs = c at codec ⊢
  simp only [BlockCompressor.compress, render, codec]
  repeat' split
  all_goals rfl

end ScriptedCompressor

end ParallelGzip
