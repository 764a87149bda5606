import ParallelGzip.Output
import ParallelGzip.Proofs.Files
import ParallelGzip.Proofs.Stream.Alike
import ParallelGzip.Proofs.Stream.Failing

set_option autoImplicit false

/-! # What a destination holds

An open file takes everything at once, so that nothing is lost in the buffer in front of it: the
file and the buffer together hold what has been written (`BufferedSink.held`). A stream holds what
it says it does. Writing to an open file never fails, and writing to a stream fails if the stream
does. What a file holds when it is let go of is what the store finds there
(`Files.Holds.storeDestination`). -/

namespace ParallelGzip

/-! ## Open files -/

namespace BufferedSink

variable (f : BufferedSink OutputFile)

/-- What has been written to an open file and has not reached the store. -/
def held : Bytes := f.sink.unstored.toList ++ f.buffer

/-- Where an open file lies, whether everything goes to its end, and where the next bytes go. -/
def place : Path × Bool × Nat := (f.sink.path, f.sink.appending, f.sink.offset)

theorem drain_file :
    ∃ f', f.drain = (.done, f') ∧ f'.held = f.held ∧ f'.place = f.place ∧ f'.buffer = [] := by
  by_cases none : f.buffer = []
  · rw [drain, if_pos none]
    exact ⟨f, rfl, rfl, rfl, none⟩
  · exact ⟨_, f.drain_of_wrote none rfl, by simp [held], rfl, rfl⟩

theorem take_file (bytes : Bytes) :
    ∃ f', f.take bytes = (.wrote bytes.length, f') ∧ f'.held = f.held ++ bytes ∧
      f'.place = f.place := by
  rw [take]
  split
  · next past =>
    refine ⟨_, rfl, ?_, rfl⟩
    simp [held, past.1]
  · exact ⟨_, rfl, (List.append_assoc _ _ _).symm, rfl⟩

theorem write_file (bytes : Bytes) :
    ∃ f', f.write bytes = (.wrote bytes.length, f') ∧ f'.held = f.held ++ bytes ∧
      f'.place = f.place := by
  rw [write]
  split
  · exact f.take_file bytes
  · obtain ⟨f', drained, same, stays, -⟩ := f.drain_file
    rw [drained]
    obtain ⟨f'', taken, more, stays'⟩ := f'.take_file bytes
    exact ⟨f'', taken, same ▸ more, stays'.trans stays⟩

theorem flush_file : ∃ f', f.flush = (.done, f') ∧ f'.held = f.held ∧ f'.place = f.place := by
  obtain ⟨f', drained, same, stays, -⟩ := f.drain_file
  rw [flush, drained]
  exact ⟨f', rfl, same, stays⟩

end BufferedSink

/-! ## Destinations -/

namespace Destination

variable {ω : Type} [Sink ω]

variable (ω) in
theorem write_file (f : BufferedSink OutputFile) (bytes : Bytes) :
    ∃ f', Sink.write (.file f : Destination ω) bytes = (.wrote bytes.length, .file f') ∧
      f'.held = f.held ++ bytes ∧ f'.place = f.place := by
  obtain ⟨f', wrote, more⟩ := f.write_file bytes
  refine ⟨f', ?_, more⟩
  show Destination.write _ _ = _
  rw [Destination.write]
  dsimp only
  rw [show Sink.write f bytes = _ from wrote]

variable (ω) in
theorem flush_file (f : BufferedSink OutputFile) :
    ∃ f', Sink.flush (.file f : Destination ω) = (.done, .file f') ∧ f'.held = f.held ∧
      f'.place = f.place := by
  obtain ⟨f', flushed, same⟩ := f.flush_file
  refine ⟨f', ?_, same⟩
  show Destination.flush _ = _
  rw [Destination.flush]
  dsimp only
  rw [show Sink.flush f = _ from flushed]

/-- A destination holds what its file or its stream does. -/
instance [RecordingSink ω] : RecordingSink (Destination ω) where
  contents
    | .file f => f.held
    | .stream w => RecordingSink.contents w
  contents_write d bytes := by
    cases d with
    | file f =>
      obtain ⟨f', wrote, more, -⟩ := write_file ω f bytes
      rw [wrote]
      exact ⟨bytes.length, rfl, by rw [List.take_length]; exact more⟩
    | stream w => exact RecordingSink.contents_write w bytes
  contents_flush d := by
    cases d with
    | file f =>
      obtain ⟨f', flushed, same, -⟩ := flush_file ω f
      rw [flushed]
      exact same
    | stream w => exact RecordingSink.contents_flush w

/-- A stream that belongs to a set. -/
inductive OnStream (good : ω → Prop) : Destination ω → Prop
  | intro {w : ω} (works : good w) : OnStream good (.stream w)

variable {good : ω → Prop}

theorem unfailing_onStream (unfailing : Sink.Unfailing good) :
    Sink.Unfailing (OnStream good) where
  write := by
    rintro _ bytes ⟨works⟩ some
    exact unfailing.write works some
  stays := by
    rintro _ bytes ⟨works⟩ some
    exact .intro (unfailing.stays works some)
  flush := by
    rintro _ ⟨works⟩
    obtain ⟨done, works⟩ := unfailing.flush works
    exact ⟨done, .intro works⟩

theorem steady_onStream (steady : Sink.Steady good) : Sink.Steady (OnStream good) := by
  rintro _ bytes cause ⟨works⟩
  exact steady _ bytes cause works

/-- An open file at its place. -/
inductive OnFile (place : Path × Bool × Nat) : Destination ω → Prop
  | intro {f : BufferedSink OutputFile} (lies : f.place = place) : OnFile place (.file f)

variable (ω) in
theorem unfailing_onFile (place : Path × Bool × Nat) :
    Sink.Unfailing (OnFile (ω := ω) place) where
  write := by
    rintro _ bytes @⟨f, lies⟩ some
    obtain ⟨f', wrote, -⟩ := write_file ω f bytes
    refine .inl ⟨bytes.length - 1, ?_⟩
    rw [wrote, Nat.sub_add_cancel (List.length_pos_iff.2 some)]
  stays := by
    rintro _ bytes @⟨f, lies⟩ some
    obtain ⟨f', wrote, -, stays⟩ := write_file ω f bytes
    rw [wrote]
    exact .intro (stays.trans lies)
  flush := by
    rintro _ @⟨f, lies⟩
    obtain ⟨f', flushed, -, stays⟩ := flush_file ω f
    rw [flushed]
    exact ⟨rfl, .intro (stays.trans lies)⟩

variable (ω) in
/-- To tell an open file to pass everything on makes no difference if it is let go of then. -/
theorem release_flush_file (f : BufferedSink OutputFile) :
    Sink.release (Sink.flush (.file f : Destination ω)).2 = Sink.release (.file f) := by
  obtain ⟨f', drained, -, -, none⟩ := f.drain_file
  have flushed : Sink.flush f = (.done, f') := by
    show f.flush = _
    rw [BufferedSink.flush, drained]
    rfl
  have again : f'.drain = (.done, f') := by rw [BufferedSink.drain, if_pos none]
  have released (g : BufferedSink OutputFile) : Sink.release (.file g : Destination ω) =
      .file { g.drain.2 with sink := Sink.release g.drain.2.sink } := rfl
  show Sink.release (Destination.file (Sink.flush f).2) = _
  rw [flushed, released, released, again, drained]

variable (ω) in
theorem steady_onFile (place : Path × Bool × Nat) : Sink.Steady (OnFile (ω := ω) place) := by
  rintro _ bytes cause @⟨f, lies⟩
  obtain ⟨f', wrote, -⟩ := write_file ω f bytes
  rw [wrote]
  simp

/-- An open file, or a stream that belongs to a set. -/
def Reliable (good : ω → Prop) : Destination ω → Prop
  | .file _ => True
  | .stream w => good w

omit [Sink ω] in
/-- A target is opened as a file, or it is a stream. -/
theorem reliable_of_openTarget {files opened : Files} {mode : OpenMode} {target : Target ω}
    {d : Destination ω} (works : ∀ w, target = .stream w → good w)
    (found : files.openTarget mode target = .ok (d, opened)) : Reliable good d := by
  cases target with
  | path name =>
    rw [Files.openTarget] at found
    split at found
    · cases found
      trivial
    · cases found
  | stream sink =>
    cases found
    exact works sink rfl

theorem unfailing_reliable (unfailing : Sink.Unfailing good) :
    Sink.Unfailing (Reliable good) where
  write {d bytes} works some := by
    cases d with
    | file f => exact (unfailing_onFile ω f.place).write (.intro rfl) some
    | stream w => exact unfailing.write works some
  stays {d bytes} works some := by
    cases d with
    | file f => trivial
    | stream w => exact unfailing.stays works some
  flush {d} works := by
    cases d with
    | file f => exact ⟨((unfailing_onFile ω f.place).flush (.intro rfl)).1, trivial⟩
    | stream w => exact unfailing.flush works

/-- An open file never fails, and a stream fails with what it is known to. -/
theorem failsOnly_reliable {writing flushing : IoError → Prop}
    (known : Sink.FailsOnly writing flushing good) :
    Sink.FailsOnly writing flushing (Reliable good) where
  stays {d bytes} works some := by
    cases d with
    | file f => trivial
    | stream w => exact known.stays works some
  write {d bytes cause} works some failed := by
    cases d with
    | file f =>
      have never : Sink.FailsOnly writing flushing (OnFile (ω := ω) f.place) :=
        (unfailing_onFile ω f.place).failsOnly
      exact never.write (.intro rfl) some failed
    | stream w => exact known.write works some failed
  staysFlushed {d} works := by
    cases d with
    | file f => trivial
    | stream w => exact known.staysFlushed works
  flush {d cause} works failed := by
    cases d with
    | file f =>
      have never : Sink.FailsOnly writing flushing (OnFile (ω := ω) f.place) :=
        (unfailing_onFile ω f.place).failsOnly
      exact never.flush (.intro rfl) failed
    | stream w => exact known.flush works failed

theorem steady_reliable (steady : Sink.Steady good) : Sink.Steady (Reliable good) := by
  intro d bytes cause works
  cases d with
  | file f => exact steady_onFile ω f.place _ bytes cause (.intro rfl)
  | stream w => exact steady w bytes cause works

end Destination

/-- What an open file holds is in the store once it has been let go of: behind what was there if it
    is to go on at the end, or in an empty file. -/
theorem Files.Holds.storeDestination {ω : Type} [Sink ω] [RecordingSink ω] {files : Files}
    {name : String} {path : Path} {content : Bytes} (holds : files.Holds name path content)
    {appends : Bool} {d : Destination ω} (opened : Destination.OnFile (path, appends, 0) d)
    (behind : appends = true ∨ content = []) :
    (files.storeDestination (Sink.release d)).1.Holds name path
      (content ++ RecordingSink.contents d) := by
  obtain @⟨f, lies⟩ := opened
  obtain ⟨f', drained, same, stays, none⟩ := f.drain_file
  have released : Sink.release (Destination.file f : Destination ω) = .file f' := by
    show Destination.file (BufferedSink.release f) = _
    rw [BufferedSink.release, drained]
    rfl
  have held : RecordingSink.contents (Destination.file f : Destination ω) =
      f'.sink.unstored.toList := by
    show f.held = _
    rw [← same, BufferedSink.held, none, List.append_nil]
  have lies := stays.trans lies
  simp only [BufferedSink.place, Prod.mk.injEq] at lies
  obtain ⟨there, goes, start⟩ := lies
  rw [released, held]
  exact holds.store there (behind.imp goes.trans fun empty => ⟨empty, start⟩)

end ParallelGzip
