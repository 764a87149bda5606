import Mathlib.Algebra.GroupWithZero.Nat
import ParallelGzip.Proofs.Agreement
import ParallelGzip.Proofs.Output
import ParallelGzip.Proofs.Stream.Deeds

set_option autoImplicit false

/-! # Sessions: outputs on one path, one after the other

A session opens a path, writes and flushes, and closes. If nothing fails in it, it puts members
behind what it has kept of the file (`Session.Leads.adds`): with workers one for each flush and one
more, in whatever order the parties take their steps, and one without workers. A file that has been
written in several sessions holds the members of all of them, and so it decodes to all that was
written (`sessions_concatenate`). -/

namespace ParallelGzip

/-! ## What has been done with an output -/

namespace Encoder

section Behind

variable {ω : Type} [Sink ω] [RecordingSink ω] {good : ω → Prop} {base data : Bytes} {level : Nat}
  {e left : Encoder ω} {m : Encoder (Array UInt8)} {deeds : List Deed}

/-- A request to write accepts what one in memory does. -/
theorem Over.exists_write (unfailing : Sink.Unfailing good) (steady : Sink.Steady good)
    (both : Over (Behind good base) e m) (holds : m.Holds level data) (offered : Bytes) :
    ∃ taken e' m', Sink.write e offered = (.wrote taken, e') ∧ Over (Behind good base) e' m' ∧
      m'.Holds level (data ++ offered.take taken) ∧ taken ≤ offered.length ∧
      (offered ≠ [] → 0 < taken) := by
  obtain ⟨taken, m', answer, holds, few, some⟩ := holds.write offered
  have together : Sink.Matches _ (Sink.write e offered) (Sink.write m offered) :=
    both.write (inStep_behind unfailing steady base) offered
  rw [answer] at together
  obtain ⟨e', wrote, both⟩ := together.exists_left
  exact ⟨taken, e', m', wrote, both, holds, few, some⟩

/-- Whatever has been done with an encoder, it has accepted what it has taken. -/
theorem Over.does (unfailing : Sink.Unfailing good) (steady : Sink.Steady good)
    (both : Over (Behind good base) e m) (holds : m.Holds level data)
    (does : Sink.Does e deeds left) :
    ∃ m', Over (Behind good base) left m' ∧ m'.Holds level (data ++ deeds.flatMap Deed.data) := by
  induction does generalizing m data with
  | nil =>
    rw [List.flatMap_nil, List.append_nil]
    exact ⟨m, both, holds⟩
  | @write e e' left offered taken deeds wrote later ih =>
    obtain ⟨taken', e'', m', wrote', both, holds, -⟩ :=
      both.exists_write unfailing steady holds offered
    cases wrote.symm.trans wrote'
    rw [List.flatMap_cons, ← List.append_assoc]
    exact ih both holds
  | @flush e e' left deeds flushed later ih =>
    obtain ⟨m', answer, holds⟩ := holds.flush
    have together : Sink.Matches _ (Sink.flush e) (Sink.flush m) :=
      both.flush (inStep_behind unfailing steady base)
    rw [flushed, answer] at together
    cases together with
    | intro _ both => exact ih both holds

/-- Whatever is to be written, the encoder takes it with so many requests. -/
theorem Over.exists_does {e : Encoder ω} {m : Encoder (Array UInt8)} {data : Bytes}
    (unfailing : Sink.Unfailing good) (steady : Sink.Steady good)
    (both : Over (Behind good base) e m) (holds : m.Holds level data) (more : Bytes) :
    ∃ deeds left m', Sink.Does e deeds left ∧ deeds.flatMap Deed.data = more ∧
      Over (Behind good base) left m' ∧ m'.Holds level (data ++ more) := by
  by_cases none : more = []
  · subst none
    rw [List.append_nil]
    exact ⟨[], e, m, .nil, rfl, both, holds⟩
  · obtain ⟨taken, e', m', wrote, both, holds, few, some⟩ :=
      both.exists_write unfailing steady holds more
    have pos := some none
    obtain ⟨deeds, left, m'', does, same, both, holds⟩ :=
      both.exists_does unfailing steady holds (more.drop taken)
    rw [List.append_assoc, List.take_append_drop] at holds
    refine ⟨.write more taken :: deeds, left, m'', .write wrote does, ?_, both, holds⟩
    rw [List.flatMap_cons, same]
    exact List.take_append_drop taken more
termination_by more.length
decreasing_by
  rw [List.length_drop]
  omega

end Behind

end Encoder

/-- A buffer in front of a new writer, and one in front of a log. -/
theorem Writer.follows_new {ω : Type} [Sink ω] (start : Pipeline DeflateCompressor ω)
    (threads : Threads) {blockSize : Nat} (room : 0 < blockSize) (returned : start.Returned)
    (unclosed : start.owner.closed = false) :
    BufferedSink.Follows (Obeys start) (.new ⟨start, threads⟩ blockSize)
      (.new ⟨[]⟩ blockSize) where
  both := over_new start threads blockSize returned unclosed
  gathers := ⟨_, BufferedSink.gathers_new blockSize⟩
  room := room

namespace Output

variable {ω : Type} [Sink ω]

theorem passesOn_parallel : Sink.PassesOn (parallel (ω := ω)) := ⟨fun _ _ => rfl, fun _ => rfl⟩

theorem passesOn_serial : Sink.PassesOn (serial (ω := ω)) := ⟨fun _ _ => rfl, fun _ => rfl⟩

section Leaves

variable [RecordingSink ω] {good : Destination ω → Prop} {d d' : Destination ω}
  {used closed : Output ω} {deeds : List Deed}

omit [RecordingSink ω] in
/-- An output with workers takes at once whatever is offered. -/
theorem exists_does_of_parallel (settings : Settings) {n : Nat} (pos : 0 < n)
    (unfailing : Sink.Unfailing good) (works : good d') (threads : Threads) {blockSize : Nat}
    (room : 0 < blockSize) (uses : List Sink.Use) :
    ∃ used, Sink.Does (parallel (.new (Writer.mk
      (.new settings (Pipeline.libraryCompressors settings n) d') threads) blockSize))
      (uses.map Deed.ofUse) used := by
  have alike : Sink.Alike
      (Writer.Obeys (.new settings (Pipeline.libraryCompressors settings n) d')) :=
    Writer.alike_obeys pos unfailing works
  have follows := Writer.follows_new
    (.new settings (Pipeline.libraryCompressors settings n) d') threads room ⟨_, rfl⟩ rfl
  obtain ⟨b, does⟩ := follows.exists_does alike uses
  exact ⟨parallel b, does.passedOn passesOn_parallel⟩

omit [RecordingSink ω] in
/-- An output with workers that has been used without a failure can be closed, and then the writer
    has carried out what was asked for. If it is let go of instead, the same becomes of it. -/
theorem exists_closed_of_parallel (settings : Settings) {n : Nat} (pos : 0 < n)
    (unfailing : Sink.Unfailing good) (works : good d')
    {threads : Threads} {blockSize : Nat} (room : 0 < blockSize)
    (does : Sink.Does (.parallel (.new (Writer.mk
      (.new settings (Pipeline.libraryCompressors settings n) d') threads) blockSize)) deeds used) :
    ∃ closed h s, used.close = (.done (), closed) ∧ Sink.release used = closed ∧
      closed.destination = Sink.release s.sink ∧
      Pipeline.Run (.new settings (Pipeline.libraryCompressors settings n) d') h s ∧
      h.requests = Sink.Use.requests blockSize (deeds.map Deed.use) ∧ s.Returned := by
  obtain ⟨b, rfl, within⟩ := does.behind passesOn_parallel
  have alike : Sink.Alike
      (Writer.Obeys (.new settings (Pipeline.libraryCompressors settings n) d')) :=
    Writer.alike_obeys pos unfailing works
  have follows := Writer.follows_new
    (.new settings (Pipeline.libraryCompressors settings n) d') threads room ⟨_, rfl⟩ rfl
  obtain ⟨logged, used, both⟩ := follows.does alike within
  obtain ⟨b', w, h, s, drained, closed, released, run, requests, returned⟩ :=
    Writer.exists_close_of_over pos unfailing works both used
  refine ⟨.parallel { b' with sink := w }, h, s, ?_, ?_, released, run, requests, returned⟩
  · rw [Output.close, drained]
    dsimp only
    rw [closed]
  · show Output.parallel (BufferedSink.release b) = _
    rw [BufferedSink.release, drained]
    exact congrArg (fun w => Output.parallel { b' with sink := w }) (congrArg Prod.snd closed)

/-- An output with workers that has been used without a failure and then closed has left a member of
    what was taken before each flush, and one of what was taken after the last. -/
theorem exists_filled_of_parallel (settings : Settings) {n : Nat} (pos : 0 < n)
    (unfailing : Sink.Unfailing good) (works : good d)
    (header : Sink.writeAll d (Frame.header settings.level) = (.done, d')) {threads : Threads}
    {blockSize : Nat} (room : 0 < blockSize)
    (does : Sink.Does (.parallel (.new (Writer.mk
      (.new settings (Pipeline.libraryCompressors settings n) d') threads) blockSize)) deeds used)
    (closes : used.close = (.done (), closed)) :
    ∃ filled bytes, closed.destination = Sink.release filled ∧ good filled ∧
      RecordingSink.contents filled = RecordingSink.contents d ++ bytes ∧
      IsStream bytes (Payloads.ofUses (deeds.map Deed.use)) := by
  obtain ⟨begun, written, begins⟩ := unfailing.writeAll works (Frame.header settings.level)
  cases header.symm.trans written
  obtain ⟨closed', h, s, closes', -, released, run, requests, returned⟩ :=
    exists_closed_of_parallel settings pos unfailing begins room does
  cases closes.symm.trans closes'
  obtain ⟨stays, bytes, holds, stream⟩ :=
    exists_filled_of_run pos unfailing works header run requests returned
  exact ⟨s.sink, bytes, released, stays, holds, stream⟩

/-- An output without workers that has been used without a failure can be closed, and then it has left
    one member of what was taken. -/
theorem exists_closed_of_serial (unfailing : Sink.Unfailing good) (steady : Sink.Steady good)
    (works : good d) {level : Nat} (does : Sink.Does (.serial (.new d level)) deeds used) :
    ∃ closed filled bytes, used.close = (.done (), closed) ∧
      closed.destination = Sink.release filled ∧ good filled ∧
      RecordingSink.contents filled = RecordingSink.contents d ++ bytes ∧
      IsStream bytes [deeds.flatMap Deed.data] := by
  obtain ⟨e, rfl, within⟩ := does.behind passesOn_serial
  obtain ⟨m, both, holds⟩ := (Encoder.over_new works level).does unfailing steady
    (Encoder.holds_new level) within
  obtain ⟨m', e', filled, -, closes, released, stays, same, isMember⟩ :=
    both.exists_close unfailing steady holds
  refine ⟨.serial e', filled, _, ?_, released, stays, same, IsStream.nil.concat isMember⟩
  rw [Output.close, closes]

end Leaves

/-! ## Opening a path -/

section Opening

variable {machine : Machine} {mode : OpenMode} {options : WriterOptions} {files opened : Files}
  {name : String} {output : Output ω}

/-- What an output is when it has been opened: of the options it has been given those that matter are
    valid, and this is the destination behind it. -/
inductive Begins (options : WriterOptions) (d : Destination ω) : Output ω → Prop
  | parallel {machine : Machine} {n : Nat} {d' : Destination ω}
      (enabled : options.threads.isDisabled = false) (valid : options.validate machine = .ok n)
      (header : Sink.writeAll d (Frame.header options.level) = (.done, d')) :
      Begins options d (.parallel (.new (Writer.mk (.new (Writer.settings options n valid)
        (Pipeline.libraryCompressors (Writer.settings options n valid) n) d') options.threads)
          options.blockSize))
  | serial (disabled : options.threads.isDisabled = true) :
      Begins options d (.serial (.new d options.level))

omit [Sink ω] in
theorem valid_of_check (checks : check machine mode options = .ok ()) :
    mode.isWrite = true ∧
      (options.threads.isDisabled = false → ∃ n, options.validate machine = .ok n) := by
  rw [check] at checks
  cases writes : mode.isWrite with
  | false =>
    rw [writes] at checks
    cases checks
  | true =>
    refine ⟨rfl, ?_⟩
    intro enabled
    simp only [writes, enabled, Bool.not_true, Bool.false_eq_true, if_false] at checks
    cases validated : options.validate machine with
    | error failure =>
      rw [validated] at checks
      cases checks
    | ok n => exact ⟨n, rfl⟩

omit [Sink ω] in
theorem openTarget_path {handle : OutputFile}
    (found : files.openOutput mode name = .ok (handle, opened)) :
    files.openTarget mode (.path name : Target ω) =
      .ok (.file (.new handle Destination.fileCapacity), opened) := by
  rw [Files.openTarget, found]

/-- On a destination that never fails an output is opened behind the checks. -/
theorem begins_of_open {target : Target ω} {good : Destination ω → Prop}
    (unfailing : Sink.Unfailing good)
    (works : ∀ d files', files.openTarget mode target = .ok (d, files') → good d)
    (opens : Output.open machine files target mode options = .opened output opened) :
    ∃ d, files.openTarget mode target = .ok (d, opened) ∧ output.Begins options d := by
  rcases checks : check machine mode options with failure | ⟨⟨⟩⟩
  · rw [Output.open, checks] at opens
    cases opens
  obtain ⟨writes, enabled⟩ := valid_of_check checks
  rcases found : files.openTarget mode target with cause | ⟨d, files'⟩
  · rw [Output.open, checks] at opens
    dsimp only at opens
    rw [found] at opens
    cases opens
  by_cases disabled : options.threads.isDisabled = true
  · rw [Output.open, checks] at opens
    dsimp only at opens
    rw [found] at opens
    dsimp only at opens
    rw [if_pos disabled] at opens
    cases opens
    exact ⟨d, rfl, .serial disabled⟩
  · obtain ⟨n, valid⟩ := enabled (Bool.eq_false_iff.2 disabled)
    obtain ⟨d', header, -⟩ := unfailing.writeAll (works d files' found) (Frame.header options.level)
    by_cases fits : Pipeline.fits n options.queueSize = true
    · cases refused : machine.spawnFailure? n with
      | some failure =>
        cases (open_eq_failed writes valid found header fits refused).symm.trans opens
      | none =>
        have hosts := Machine.hosts_of_fits fits refused
        cases (open_eq_parallel writes valid found header hosts).symm.trans opens
        exact ⟨d, rfl, .parallel (Bool.eq_false_iff.2 disabled) valid header⟩
    · cases (open_eq_panicked writes valid found header
        (Bool.eq_false_iff.2 fits)).symm.trans opens

omit [Sink ω] in
theorem exists_handle_of_openTarget {d : Destination ω}
    (found : files.openTarget mode (.path name) = .ok (d, opened)) :
    ∃ handle, files.openOutput mode name = .ok (handle, opened) ∧
      d = .file (.new handle Destination.fileCapacity) := by
  rw [Files.openTarget] at found
  rcases opened' : files.openOutput mode name with cause | ⟨handle, files'⟩
  · rw [opened'] at found
    cases found
  · rw [opened'] at found
    cases found
    exact ⟨handle, rfl, rfl⟩

/-- On a path there is an open file behind it. -/
theorem begins_of_open_path
    (opens : Output.open machine files (.path name) mode options = .opened output opened) :
    ∃ handle, files.openOutput mode name = .ok (handle, opened) ∧
      output.Begins options (.file (.new handle Destination.fileCapacity)) := by
  -- no stream has to work
  have unfailing : Sink.Unfailing fun _ : ω => False := ⟨nofun, nofun, nofun⟩
  have works : ∀ d files', files.openTarget mode (.path name) = .ok (d, files') →
      Destination.Reliable (fun _ : ω => False) d := by
    intro d files' target
    obtain ⟨handle, -, rfl⟩ := exists_handle_of_openTarget target
    trivial
  obtain ⟨d, target, begins⟩ :=
    begins_of_open (Destination.unfailing_reliable unfailing) works opens
  obtain ⟨handle, found, rfl⟩ := exists_handle_of_openTarget target
  exact ⟨handle, found, begins⟩

end Opening

/-! ## Sessions -/

/-- What a caller opens, and what has been done with it until it is closed. -/
structure Session where
  mode : OpenMode
  options : WriterOptions
  deeds : List Deed

namespace Session

/-- What has been taken in a session. -/
def data (s : Session) : Bytes := s.deeds.flatMap Deed.data

/-- The payloads of the members of a session. With workers each flush ends a member. -/
def payloads (s : Session) : List Bytes :=
  if s.options.threads.isDisabled then [s.data] else Payloads.ofUses (s.deeds.map Deed.use)

/-- How many members there are in a session: with workers one more than there were flushes. -/
def members (s : Session) : Nat :=
  if s.options.threads.isDisabled then 1 else s.deeds.countP Deed.isFlush + 1

theorem length_payloads (s : Session) : s.payloads.length = s.members := by
  rw [payloads, members]
  split
  · rfl
  · rw [Payloads.length_ofUses, Deed.countP_isFlush_use]

theorem flatten_payloads (s : Session) : s.payloads.flatten = s.data := by
  rw [payloads]
  split
  · exact List.append_nil _
  · rw [Payloads.flatten_ofUses, Deed.flatMap_data_use, data]

theorem flatten_flatMap_payloads (sessions : List Session) :
    (sessions.flatMap payloads).flatten = sessions.flatMap data := by
  induction sessions with
  | nil => rfl
  | cons s sessions ih =>
    rw [List.flatMap_cons, List.flatten_append, ih, flatten_payloads, List.flatMap_cons]

theorem length_flatMap_payloads (sessions : List Session) :
    (sessions.flatMap payloads).length = (sessions.map members).sum := by
  rw [List.length_flatMap]
  exact congrArg (fun count => (sessions.map count).sum) (funext length_payloads)

variable (ω) in
/-- The files as they are behind a session on a path in which nothing has failed, on whatever
    machine. -/
inductive Leads (name : String) (files : Files) (s : Session) : Files → Prop
  /-- One request after the other has been answered. -/
  | inTurn {machine : Machine} {output used closed : Output ω} {opened : Files}
      (opens : Output.open machine files (.path name) s.mode s.options = .opened output opened)
      (does : Sink.Does output s.deeds used) (closes : used.close = (.done (), closed)) :
      Leads name files s (opened.storeOutput closed).1
  /-- The workers, the sequencer and the caller have taken their steps in any other order. -/
  | inAnyOrder {machine : Machine}
      {writer : BufferedSink (Writer DeflateCompressor (Destination ω))} {opened : Files}
      {h : History DeflateCompressor (Destination ω)}
      {p : Pipeline DeflateCompressor (Destination ω)}
      (opens : Output.open machine files (.path name) s.mode s.options =
        .opened (.parallel writer) opened)
      (run : writer.sink.pipeline.Run h p)
      (requests : h.requests = Sink.Use.requests s.options.blockSize (s.deeds.map Deed.use))
      (returned : p.Returned) : Leads name files s (opened.storeDestination (Sink.release p.sink)).1

variable (ω) in
/-- The files as they are behind sessions on a path, one after the other. -/
inductive AllLead (name : String) : Files → List Session → Files → Prop
  | nil {files : Files} : AllLead name files [] files
  | cons {files files' left : Files} {s : Session} {sessions : List Session}
      (first : s.Leads ω name files files') (later : AllLead name files' sessions left) :
      AllLead name files (s :: sessions) left

section Leads

variable [RecordingSink ω] {name : String} {files files' : Files} {s : Session}

/-- The file holds members with these payloads behind what has been kept of it: all of it if it is
    opened to go on at the end, and nothing otherwise. -/
def Adds (mode : OpenMode) (name : String) (files files' : Files) (payloads : List Bytes) : Prop :=
  ∃ path kept bytes, files'.Holds name path (kept ++ bytes) ∧ IsStream bytes payloads ∧
    (kept = [] ∨ mode = .append ∧ files.content name = .ok kept) ∧
    (mode = .append → ∀ content, files.content name = .ok content → kept = content)

/-- What an open file has been filled with is added to it when it is let go of. -/
theorem adds_of_filled {mode : OpenMode} {handle : OutputFile} {opened : Files}
    {filled : Destination ω} {bytes : Bytes} {payloads : List Bytes}
    (found : files.openOutput mode name = .ok (handle, opened))
    (lies : Destination.OnFile (BufferedSink.new handle Destination.fileCapacity).place filled)
    (holds : RecordingSink.contents filled = RecordingSink.contents
      (.file (.new handle Destination.fileCapacity) : Destination ω) ++ bytes)
    (stream : IsStream bytes payloads) :
    Adds mode name files (opened.storeDestination (Sink.release filled)).1 payloads := by
  obtain ⟨kept, same, there, comes, goes⟩ := Files.holds_of_openOutput found
  generalize handle.path = path at same there
  subst same
  have stored := there.storeDestination lies (comes.symm.imp (decide_eq_true ·.1) id)
  rw [holds] at stored
  exact ⟨path, kept, bytes, stored, stream, comes, goes⟩

/-- A session adds its members to the file. -/
theorem Leads.adds (leads : s.Leads ω name files files') :
    Adds s.mode name files files' s.payloads := by
  have unfailing := Destination.unfailing_onFile ω
  cases leads with
  | inTurn opens does closes =>
    obtain ⟨handle, found, begins⟩ := begins_of_open_path opens
    cases begins with
    | parallel enabled valid header =>
      obtain ⟨some, -, pos⟩ := WriterOptions.pos_of_validate valid
      obtain ⟨filled, bytes, released, lies, holds, stream⟩ := exists_filled_of_parallel
        (Writer.settings s.options _ valid) pos (unfailing _) (.intro rfl) header some does closes
      rw [payloads, enabled, if_neg Bool.false_ne_true, Files.storeOutput, released]
      exact adds_of_filled found lies holds stream
    | serial disabled =>
      obtain ⟨closed', filled, bytes, closes', released, lies, holds, stream⟩ :=
        exists_closed_of_serial (unfailing _) (Destination.steady_onFile ω _) (.intro rfl) does
      cases closes.symm.trans closes'
      rw [payloads, if_pos disabled, Files.storeOutput, released]
      exact adds_of_filled found lies holds stream
  | inAnyOrder opens run requests returned =>
    obtain ⟨handle, found, begins⟩ := begins_of_open_path opens
    cases begins with
    | parallel enabled valid header =>
      obtain ⟨lies, bytes, holds, stream⟩ := exists_filled_of_run
        (WriterOptions.pos_of_validate valid).2.2 (unfailing _) (.intro rfl) header run requests
        returned
      rw [payloads, enabled, if_neg Bool.false_ne_true]
      exact adds_of_filled found lies holds stream

omit [RecordingSink ω] in
/-- With workers a session can be carried out in which whatever is offered is taken at once. -/
theorem exists_leads_of_parallel {machine : Machine} {mode : OpenMode} {options : WriterOptions}
    {n : Nat} {handle : OutputFile} {opened : Files} (writes : mode.isWrite = true)
    (valid : options.validate machine = .ok n) (hosts : machine.Hosts n options.queueSize)
    (found : files.openOutput mode name = .ok (handle, opened)) (uses : List Sink.Use) :
    ∃ files', Leads ω name files ⟨mode, options, uses.map Deed.ofUse⟩ files' := by
  have pos := WriterOptions.pos_of_validate valid
  have unfailing := Destination.unfailing_onFile ω
    (BufferedSink.new handle Destination.fileCapacity).place
  obtain ⟨d, header, begins⟩ := unfailing.writeAll (.intro rfl) (Frame.header options.level)
  have opens := open_eq_parallel writes valid (openTarget_path found) header hosts
  obtain ⟨used, does⟩ := exists_does_of_parallel (Writer.settings options n valid) pos.2.2
    unfailing begins options.threads pos.1 uses
  obtain ⟨closed, -, -, closes, -⟩ := exists_closed_of_parallel _ pos.2.2 unfailing begins pos.1 does
  exact ⟨_, .inTurn opens does closes⟩

/-- Without workers a session can be carried out in which this is taken. -/
theorem exists_leads_of_serial {mode : OpenMode} {options : WriterOptions} {handle : OutputFile}
    {opened : Files} (writes : mode.isWrite = true)
    (valid : validateLevel options.level = .ok options.level)
    (disabled : options.threads.isDisabled = true)
    (found : files.openOutput mode name = .ok (handle, opened)) (data : Bytes) :
    ∃ deeds files', deeds.flatMap Deed.data = data ∧
      Leads ω name files ⟨mode, options, deeds⟩ files' := by
  have opens : Output.open .ordinary files (.path name : Target ω) mode options = _ :=
    open_eq_serial writes valid disabled (openTarget_path found)
  have unfailing := Destination.unfailing_onFile ω
    (BufferedSink.new handle Destination.fileCapacity).place
  have steady := Destination.steady_onFile ω
    (BufferedSink.new handle Destination.fileCapacity).place
  have both := Encoder.over_new (.intro rfl : Destination.OnFile (ω := ω) _
    (.file (.new handle Destination.fileCapacity))) options.level
  obtain ⟨deeds, e, m, does, same, both, holds⟩ :=
    both.exists_does unfailing steady (Encoder.holds_new options.level) data
  obtain ⟨m', e', filled, -, closes, -⟩ := both.exists_close unfailing steady holds
  have closed : (serial e).close = (.done (), .serial e') := by
    rw [Output.close, closes]
  exact ⟨deeds, _, same, .inTurn opens (does.passedOn passesOn_serial) closed⟩

/-- Sessions that go on at the end add their members to those that are there. -/
theorem AllLead.holds {sessions : List Session} (lead : AllLead ω name files sessions files')
    (append : ∀ s ∈ sessions, s.mode = .append) {path : Path} {content : Bytes}
    {before : List Bytes} (holds : files.Holds name path content)
    (stream : IsStream content before) :
    ∃ path content, files'.Holds name path content ∧
      IsStream content (before ++ sessions.flatMap payloads) := by
  induction lead generalizing path content before with
  | nil =>
    rw [List.flatMap_nil, List.append_nil]
    exact ⟨path, content, holds, stream⟩
  | @cons files files' left s sessions first later ih =>
    obtain ⟨place, kept, bytes, holds', added, -, goes⟩ := first.adds
    obtain rfl := goes (append s (List.mem_cons_self ..)) content holds.content_eq
    rw [List.flatMap_cons, ← List.append_assoc]
    exact ih (fun s' later => append s' (.tail _ later)) holds' (stream.append added)

end Leads

end Session

end Output

/-! ## Reading a file -/

/-- An open file serves what is in front of it. -/
theorem InputFile.serves (path : Path) (offset : Nat) (data : Bytes) :
    Source.Serves (⟨path, offset, some data⟩ : InputFile) data 0 := by
  refine ⟨fun f data _ => f.rest = some data, ?_, rfl⟩
  rintro ⟨path, offset, rest⟩ data refusals n rfl
  show Source.Answers _ n data refusals (InputFile.read _ n)
  rw [InputFile.read]
  dsimp only
  by_cases none : data.take n = []
  · have same : data.drop n = data := by
      conv_rhs => rw [← List.take_append_drop n data, none, List.nil_append]
    rw [none]
    exact .nothing (List.take_eq_nil_iff.1 none) (Nat.le_refl _) (congrArg some same)
  · have piece : Source.Answers (fun (f : InputFile) data _ => f.rest = some data) n
        (data.take n ++ data.drop n) refusals (.delivered (data.take n),
          ⟨path, offset + (data.take n).length, some (data.drop n)⟩) :=
      .piece none (List.length_take_le _ _) (Nat.le_refl _) rfl
    rwa [List.take_append_drop] at piece

/-- A file with content can be read. -/
theorem InputFile.unfailing (path : Path) (offset : Nat) (data : Bytes) :
    Source.Unfailing (⟨path, offset, some data⟩ : InputFile) := by
  refine ⟨fun f => f.rest.isSome = true, ?_, rfl⟩
  rintro ⟨path, offset, none | rest⟩ n some
  · cases some
  · exact ⟨by simp [Source.read, InputFile.read], rfl⟩

section Reading

variable {files : Files} {name : String} {path : Path} {content : Bytes} {payloads : List Bytes}

/-- Members that are in a file are read from it, with a worker and without one. -/
theorem Files.Holds.reads {σ : Type} [Source σ] (holds : files.Holds name path content)
    (stream : IsStream content payloads) {options : ReaderOptions}
    (valid : options.validate = .ok ()) :
    (options.threads.isDisabled = true →
      ∃ decoder, Input.open files (.path name : Provider σ) options = .done (.onDemand decoder) ∧
        Source.ReadsOut (Input.onDemand decoder) payloads.flatten none payloads.flatten.length) ∧
    (options.threads.isDisabled = false →
      canAllocate Reader.placeSize options.queueSize = true →
      ∃ r, Input.open files (.path name : Provider σ) options = .done (.ahead r) ∧
        r.HandsOver payloads.flatten none ∧
        Source.ReadsOut (Input.ahead r) payloads.flatten none payloads.flatten.length) := by
  have provides : files.openProvider (.path name : Provider σ) =
      .ok (.file ⟨path, 0, some content⟩) := by
    rw [Files.openProvider, holds.openInput]
    rfl
  have serves : Source.Serves (Origin.file ⟨path, 0, some content⟩ : Origin σ) content 0 :=
    (InputFile.serves path 0 content).passedOn Origin.passesOn_file
  have unfailing : Source.Unfailing (Origin.file ⟨path, 0, some content⟩ : Origin σ) :=
    (InputFile.unfailing path 0 content).passedOn Origin.passesOn_file
  have verdict := stream.verdict 0
  constructor
  · intro disabled
    refine ⟨_, Input.open_eq_onDemand provides valid disabled, ?_⟩
    have some := (ReaderOptions.validate_eq_ok_iff.1 valid).1
    have told := Members.tells serves unfailing (show 0 < Input.fetchCapacity by decide)
    rw [verdict] at told
    exact ((told.buffered (Nat.pos_of_ne_zero some)).passedOn Input.passesOn_onDemand).readsOut
  · intro enabled room
    obtain ⟨r, bytes, opened, comes, hands, tells⟩ :=
      Reader.exists_handsOver serves unfailing valid room
    rw [verdict] at comes hands tells
    obtain rfl := comes.complete (by simp)
    exact ⟨r, Input.open_eq_ahead provides valid enabled opened, hands,
      (tells.passedOn Input.passesOn_ahead).readsOut⟩

end Reading

namespace Output

variable {ω : Type} [Sink ω] [RecordingSink ω]

/-- Sessions on one path, of which all but the first go on at the end, leave a file in which their
    members are, one behind the other: as many as there are in all the sessions together. It is
    decoded to what was taken in them, in this order, at once and by inputs with a worker and
    without one. -/
theorem sessions_concatenate {name : String} {files files' : Files} {sessions : List Session}
    (some : sessions ≠ []) (append : ∀ s ∈ sessions.tail, s.mode = .append)
    (fresh : ∀ s ∈ sessions.head?, s.mode = .append →
      ∀ content, files.content name = .ok content → content = [])
    (lead : Session.AllLead ω name files sessions files') :
    ∃ content, files'.content name = .ok content ∧
      decompress content = .ok (sessions.flatMap Session.data) ∧
      Decodes content (sessions.flatMap Session.payloads) ∧
      (sessions.flatMap Session.payloads).length = (sessions.map Session.members).sum ∧
      ∀ {σ : Type} [Source σ] (options : ReaderOptions), options.validate = .ok () →
        (options.threads.isDisabled = true →
          ∃ decoder, Input.open files' (.path name : Provider σ) options =
              .done (.onDemand decoder) ∧
            Source.ReadsOut (Input.onDemand decoder) (sessions.flatMap Session.data) none
              (sessions.flatMap Session.data).length) ∧
        (options.threads.isDisabled = false →
          canAllocate Reader.placeSize options.queueSize = true →
          ∃ r, Input.open files' (.path name : Provider σ) options = .done (.ahead r) ∧
            r.HandsOver (sessions.flatMap Session.data) none ∧
            Source.ReadsOut (Input.ahead r) (sessions.flatMap Session.data) none
              (sessions.flatMap Session.data).length) := by
  cases lead with
  | nil => exact absurd rfl some
  | @cons _ files₁ _ s sessions first later =>
    obtain ⟨path, kept, bytes, holds, stream, comes, goes⟩ := first.adds
    obtain rfl : kept = [] := by
      rcases comes with none | ⟨mode, has⟩
      · exact none
      · exact fresh s rfl mode kept has
    obtain ⟨path, content, holds, stream⟩ := later.holds append holds stream
    rw [← List.flatMap_cons] at stream
    rw [← Session.flatten_flatMap_payloads]
    refine ⟨content, holds.content_eq, stream.decodes.whole, stream.decodes,
      Session.length_flatMap_payloads _, ?_⟩
    intro σ _ options valid
    exact holds.reads stream valid

/-- One session with a worker that ends right behind a flush, one without workers, and one with two
    workers in which nothing is written. -/
def threeSessions (deeds : List Deed) : List Session :=
  [⟨.exclusive, { blockSize := 2 }, [.write [7, 7, 7] 3, .flush]⟩,
    ⟨.append, { threads := .fixed 0 }, deeds⟩, ⟨.append, { threads := .fixed 2 }, []⟩]

/-- Three sessions on a path that is new. -/
theorem sessions_concatenate_three :
    ∃ deeds files', deeds.flatMap Deed.data = [8] ∧ threeSessions deeds ≠ [] ∧
      (∀ s ∈ (threeSessions deeds).tail, s.mode = .append) ∧
      (∀ s ∈ (threeSessions deeds).head?, s.mode = .append →
        ∀ content, ({} : Files).content "log.gz" = .ok content → content = []) ∧
      Session.AllLead (Array UInt8) "log.gz" {} (threeSessions deeds) files' ∧
      ∃ content, files'.content "log.gz" = .ok content ∧
        decompress content = .ok [7, 7, 7, 8] ∧ Decodes content [[7, 7, 7], [], [8], []] ∧
        (∃ decoder, Input.open files' (.path "log.gz" : Provider Scheduled)
            { threads := .fixed 0 } = .done (.onDemand decoder) ∧
          Source.ReadsOut (Input.onDemand decoder) [7, 7, 7, 8] none 4) ∧
        ∃ r, Input.open files' (.path "log.gz" : Provider Scheduled) {} = .done (.ahead r) ∧
          r.HandsOver [7, 7, 7, 8] none ∧
          Source.ReadsOut (Input.ahead r) [7, 7, 7, 8] none 4 := by
  have valid : ({ blockSize := 2 } : WriterOptions).validate .ordinary = .ok 1 :=
    WriterOptions.validate_eq_ok_iff.2 (by decide)
  have valid' : ({ threads := .fixed 2 } : WriterOptions).validate .ordinary = .ok 2 :=
    WriterOptions.validate_eq_ok_iff.2 (by decide)
  have disabled : ({ threads := .fixed 0 } : WriterOptions).threads.isDisabled = true := rfl
  have located : ({} : Files).locate "log.gz" = .ok (.entry ["log.gz"] false) := by
    have parts : "log.gz".splitOn "/" = ["log.gz"] := by
      simp +decide [String.splitOn, String.splitOnAux]
    simp [Files.locate, parts, Files.maxName]
    rfl
  have created := Files.openOutput_of_none located (by decide +kernel) .exclusive
  obtain ⟨files₁, first⟩ := Session.exists_leads_of_parallel (ω := Array UInt8) rfl valid
    Machine.hosts_default created [.writeAll [7, 7, 7], .flush]
  obtain ⟨path₁, kept₁, bytes₁, holds₁, -⟩ := first.adds
  obtain ⟨deeds, files₂, taken, second⟩ := Session.exists_leads_of_serial (ω := Array UInt8)
    rfl rfl disabled holds₁.openOutput [8]
  obtain ⟨path₂, kept₂, bytes₂, holds₂, -⟩ := second.adds
  obtain ⟨files₃, third⟩ := Session.exists_leads_of_parallel (ω := Array UInt8) rfl valid'
    (Machine.hosts_ordinary (by decide) (by decide)) holds₂.openOutput []
  have lead : Session.AllLead (Array UInt8) "log.gz" {} (threeSessions deeds) files₃ :=
    .cons first (.cons second (.cons third .nil))
  have some : threeSessions deeds ≠ [] := List.cons_ne_nil _ _
  have append : ∀ s ∈ (threeSessions deeds).tail, s.mode = .append := by simp [threeSessions]
  have fresh : ∀ s ∈ (threeSessions deeds).head?, s.mode = .append →
      ∀ content, ({} : Files).content "log.gz" = .ok content → content = [] := by
    simp [threeSessions]
  have data : (threeSessions deeds).flatMap Session.data = [7, 7, 7, 8] := by
    simp [threeSessions, Session.data, taken, Deed.data]
  have payloads : (threeSessions deeds).flatMap Session.payloads = [[7, 7, 7], [], [8], []] := by
    simp [threeSessions, Session.payloads, Session.data, taken, Threads.isDisabled]
    decide
  obtain ⟨content, has, whole, decodes, -, reads⟩ :=
    sessions_concatenate some append fresh lead
  rw [data] at whole reads
  rw [payloads] at decodes
  exact ⟨deeds, files₃, taken, some, append, fresh, lead, content, has, whole, decodes,
    (reads { threads := .fixed 0 } rfl).1 rfl, (reads {} rfl).2 rfl (by decide)⟩

end Output

end ParallelGzip
