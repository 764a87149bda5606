import ParallelGzip.Files.Handle

set_option autoImplicit false

/-! # Files: what a name stands for once its file has been written

Writing a file changes what lies at one path, and no name is walked through a file. So a name under
which a file can be opened for writing stands for the same path afterwards (`locate_set`): the file
is found there with what was kept of it (`holds_of_openOutput`), and with what has been written
behind that once a handle is brought into the store (`Holds.store`). -/

namespace ParallelGzip

namespace Files

variable {files : Files} {name : String} {path place : Path} {content : Bytes}

/-! ## Walking past a file -/

theorem find?_of_look {found : Option FileNode} (looked : files.look path = .ok found) :
    files.find? path = found := by
  rw [look] at looked
  split at looked
  · cases looked
  · exact Except.ok.inj looked

theorem isGiven_eq_false (clear : files.find? path ≠ some .directory) : path.isGiven = false := by
  rw [find?] at clear
  split at clear
  · exact absurd rfl clear
  · next given => exact Bool.eq_false_iff.2 given

theorem look_set_self (clear : files.find? path ≠ some .directory) {found : Option FileNode}
    (looked : files.look path = .ok found) (entry : FileNode) :
    (files.set path entry).look path = .ok (some entry) := by
  rw [look] at looked ⊢
  split
  · next long =>
    rw [if_pos long] at looked
    cases looked
  · rw [find?_set_self files (isGiven_eq_false clear)]

/-- A directory is where it was when something else becomes a file. -/
theorem look_set_of_directory (clear : files.find? path ≠ some .directory)
    (looked : files.look place = .ok (some .directory)) (content : Bytes) :
    (files.set path (.file content)).look place = .ok (some .directory) := by
  rw [look] at looked ⊢
  split
  · next long =>
    rw [if_pos long] at looked
    cases looked
  · next short =>
    rw [if_neg short, Except.ok.injEq] at looked
    have other : place ≠ path := by
      rintro rfl
      exact clear looked
    rw [find?_set_of_ne files other, looked]

theorem enter_set (clear : files.find? path ≠ some .directory) {part : String} {inner : Path}
    (entered : files.enter place part = .ok inner) (content : Bytes) :
    (files.set path (.file content)).enter place part = .ok inner := by
  by_cases dot : part = "."
  · rw [enter, if_pos dot] at entered ⊢
    exact entered
  by_cases dots : part = ".."
  · rw [enter, if_neg dot, if_pos dots] at entered ⊢
    exact entered
  rw [enter, if_neg dot, if_neg dots] at entered ⊢
  rcases looked : files.look (place ++ [part]) with cause | found
  · rw [looked] at entered
    cases entered
  · rw [looked] at entered
    match found, entered with
    | some .directory, entered =>
      rw [look_set_of_directory clear looked]
      exact entered

theorem walk_cons_cons (files : Files) (place : Path) (slash : Bool) (part next : String)
    (parts : List String) :
    files.walk place slash (part :: next :: parts) =
      (do files.walk (← files.enter place part) slash (next :: parts)) := by
  rw [walk]
  simp

theorem walk_set (clear : files.find? path ≠ some .directory) {slash : Bool} {parts : List String}
    {location : Location} (walked : files.walk place slash parts = .ok location)
    (content : Bytes) : (files.set path (.file content)).walk place slash parts = .ok location := by
  induction parts generalizing place with
  | nil => exact walked
  | cons part parts ih =>
    cases parts with
    | nil => exact walked
    | cons next parts =>
      rcases entered : files.enter place part with cause | inner
      · rw [walk_cons_cons, entered] at walked
        cases walked
      · rw [walk_cons_cons, entered] at walked
        rw [walk_cons_cons, enter_set clear entered]
        exact ih walked

theorem locate_set (clear : files.find? path ≠ some .directory) {location : Location}
    (located : files.locate name = .ok location) (content : Bytes) :
    (files.set path (.file content)).locate name = .ok location := by
  unfold locate at located ⊢
  split at located
  · cases located
  · split at located
    · cases located
    · next plain short =>
      rw [if_neg plain, if_neg short]
      split at located
      · next empty =>
        rw [if_pos empty]
        exact located
      · next some =>
        rw [if_neg some]
        exact walk_set clear located content

/-! ## Files that are there -/

/-- A file with this content lies at this path, and the name stands for it. -/
structure Holds (files : Files) (name : String) (path : Path) (content : Bytes) : Prop where
  located : files.locate name = .ok (.entry path false)
  looked : files.look path = .ok (some (.file content))

/-- A file where there was one before, or nothing. -/
theorem holds_set (located : files.locate name = .ok (.entry path false)) {found : Option FileNode}
    (looked : files.look path = .ok found) (clear : found ≠ some .directory) (content : Bytes) :
    (files.set path (.file content)).Holds name path content := by
  rw [← find?_of_look looked] at clear
  exact ⟨locate_set clear located content, look_set_self clear looked _⟩

namespace Holds

variable (holds : files.Holds name path content)

include holds

theorem lookup : files.lookup name = .ok (path, .file content) := by
  simp only [Files.lookup, holds.located, holds.looked, bind, Except.bind]
  rfl

theorem content_eq : files.content name = .ok content := by
  simp only [Files.content, holds.lookup, bind, Except.bind]
  rfl

theorem openInput : files.openInput name = .ok ⟨path, 0, some content⟩ := by
  simp only [Files.openInput, holds.lookup, bind, Except.bind]
  rfl

/-- What has been written to a handle goes behind the content if the handle is for that, or if there
    is no content yet. -/
theorem store {handle : OutputFile} (place : handle.path = path)
    (behind : handle.appending = true ∨ content = [] ∧ handle.offset = 0) :
    (files.store handle).1.Holds name path (content ++ handle.unstored.toList) := by
  subst place
  rw [Files.store]
  split
  · next none =>
    rw [none, Array.toList_empty, List.append_nil]
    exact holds
  · rw [find?_of_look holds.looked]
    have whole : (if handle.appending then content ++ handle.unstored.toList
        else overwrite content handle.offset handle.unstored.toList) =
          content ++ handle.unstored.toList := by
      split
      · rfl
      · next plain =>
        obtain ⟨rfl, start⟩ := behind.resolve_left plain
        rw [start]
        simp [overwrite]
    dsimp only
    rw [whole]
    exact holds_set holds.located holds.looked (by simp) _

end Holds

/-! ## Files that are written to -/

theorem located_of_target {fresh : Bool} {content? : Option Bytes}
    (targets : files.target name fresh = .ok (path, content?)) :
    files.locate name = .ok (.entry path false) ∧
      files.look path = .ok (content?.map .file) := by
  rw [target] at targets
  rcases located : files.locate name with cause | ⟨place, named⟩ | ⟨place, slash⟩
  · rw [located] at targets
    cases targets
  · rw [located] at targets
    cases targets
  rw [located] at targets
  cases slash with
  | true => cases targets
  | false =>
    simp only [bind, Except.bind] at targets
    rcases looked : files.look place with cause | none | entry
    · rw [looked] at targets
      cases targets
    · rw [looked] at targets
      cases targets
      exact ⟨rfl, looked⟩
    rw [looked] at targets
    cases fresh with
    | true => cases targets
    | false =>
      cases entry with
      | directory => cases targets
      | file content =>
        cases targets
        exact ⟨rfl, looked⟩

theorem content_eq_ok_iff {fresh : Bool} {content? : Option Bytes}
    (targets : files.target name fresh = .ok (path, content?)) (data : Bytes) :
    files.content name = .ok data ↔ content? = some data := by
  obtain ⟨located, looked⟩ := located_of_target targets
  cases content? with
  | none =>
    simp only [content, lookup, located, looked, bind, Except.bind]
    simp [throw, throwThe, MonadExceptOf.throw]
  | some kept =>
    rw [(Holds.mk located looked).content_eq]
    simp

/-- A file that is not there yet is created. -/
theorem openOutput_of_none (located : files.locate name = .ok (.entry path false))
    (looked : files.look path = .ok none) (mode : OpenMode) :
    files.openOutput mode name =
      .ok (⟨path, mode = .append, 0, #[]⟩, files.set path (.file [])) := by
  simp only [openOutput, target, located, looked, bind, Except.bind]
  exact congrArg (fun kept => Except.ok (_, files.set path (.file kept))) (ite_self _)

/-- A file that is there is opened to go on at the end. -/
theorem Holds.openOutput (holds : files.Holds name path content) :
    files.openOutput .append name =
      .ok (⟨path, true, 0, #[]⟩, files.set path (.file content)) := by
  simp only [Files.openOutput, target, holds.located, holds.looked, bind, Except.bind]
  rfl

/-- A file that has been opened for writing is there. It begins with what it held if it is to go on
    at the end, and otherwise with nothing. -/
theorem holds_of_openOutput {mode : OpenMode} {handle : OutputFile} {files' : Files}
    (opens : files.openOutput mode name = .ok (handle, files')) :
    ∃ kept, handle = ⟨handle.path, mode = .append, 0, #[]⟩ ∧
      files'.Holds name handle.path kept ∧
      (kept = [] ∨ mode = .append ∧ files.content name = .ok kept) ∧
      (mode = .append → ∀ content, files.content name = .ok content → kept = content) := by
  rw [openOutput] at opens
  rcases targets : files.target name (mode = .exclusive) with cause | ⟨path, content?⟩
  · rw [targets] at opens
    cases opens
  rw [targets] at opens
  cases opens
  obtain ⟨located, looked⟩ := located_of_target targets
  refine ⟨_, rfl, holds_set located looked ?_ _, ?_, ?_⟩
  · cases content? <;> simp
  · cases content? with
    | none => exact .inl (ite_self _)
    | some content =>
      by_cases appends : mode = .append
      · rw [if_pos appends]
        exact .inr ⟨appends, (content_eq_ok_iff targets content).2 rfl⟩
      · exact .inl (if_neg appends)
  · intro appends content has
    rw [if_pos appends, (content_eq_ok_iff targets content).1 has]
    rfl

end Files

end ParallelGzip
