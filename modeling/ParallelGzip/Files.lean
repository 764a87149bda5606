import ParallelGzip.Bytes
import ParallelGzip.Error

set_option autoImplicit false

/-! # Files: named byte strings in directories

A store maps paths to files and directories. A name is walked part by part: every part but the last
has to be a directory, `.` stays where it is and `..` goes back. A slash behind the last part asks
for a directory, and nothing can be created under such a name but a directory. -/

namespace ParallelGzip

/-- The parts of a path, from the outermost directory inwards. The empty path is the directory in
    which names begin; paths of `..` alone are the directories around it. -/
abbrev Path := List String

namespace Path

/-- The directory in which names begin that start with a slash. -/
def root : Path := ["/"]

/-- Whether a path is a directory that is there from the beginning. -/
def isGiven (path : Path) : Bool := path = root || path.all (· = "..")

/-- The directory around a directory. -/
def parent (path : Path) : Path :=
  if path = root then root
  else if path.isGiven then path ++ [".."]
  else path.dropLast

end Path

/-- What lies at a path. -/
inductive FileNode
  | file (content : Bytes)
  | directory
  deriving DecidableEq

/-- A store of files. -/
structure Files where
  entries : List (Path × FileNode) := []

namespace Files

/-- What lies at a path. -/
def find? (files : Files) (path : Path) : Option FileNode :=
  if path.isGiven then some .directory
  else (files.entries.find? fun entry => entry.1 = path).map (·.2)

/-- Let `entry` lie at `path`. -/
def set (files : Files) (path : Path) (entry : FileNode) : Files :=
  ⟨(path, entry) :: files.entries.filter fun old => old.1 ≠ path⟩

theorem find?_set_self (files : Files) {path : Path} (h : path.isGiven = false) (entry : FileNode) :
    (files.set path entry).find? path = some entry := by
  simp [find?, set, h]

theorem find?_set_of_ne (files : Files) {path other : Path} (h : other ≠ path) (entry : FileNode) :
    (files.set path entry).find? other = files.find? other := by
  unfold find? set
  split
  · rfl
  · rw [List.find?_cons_of_neg (by simpa using h.symm), List.find?_filter]
    congr 2
    funext old
    by_cases ho : old.1 = other
    · simp [ho, h]
    · simp [ho]

/-! ## Walking a name -/

/-- What a name comes to when all but its last part has been walked. -/
inductive Location
  /-- A directory by its place: the name is empty, or ends in a dot or two. -/
  | directory (path : Path) (named : Bool)
  /-- Something in a directory, under a name behind which there may be a slash. -/
  | entry (path : Path) (slash : Bool)

/-- The longest part of a name, in bytes. -/
def maxPart : Nat := 255

/-- The longest name, in bytes. -/
def maxName : Nat := 4095

/-- What lies in a directory under a part of a name. -/
def look (files : Files) (path : Path) : Except SystemError (Option FileNode) :=
  if maxPart < (path.getLastD "").utf8ByteSize then .error .nameTooLong
  else .ok (files.find? path)

/-- Walk from a directory into the one a part of a name stands for. -/
def enter (files : Files) (path : Path) (part : String) : Except SystemError Path :=
  if part = "." then .ok path
  else if part = ".." then .ok path.parent
  else do
    match ← files.look (path ++ [part]) with
    | some .directory => return path ++ [part]
    | some (.file _) => throw .notDirectory
    | none => throw .noSuchFile

/-- Walk the parts of a name up to the last one. -/
def walk (files : Files) (path : Path) (slash : Bool) : List String → Except SystemError Location
  | [] => .ok (.directory path true)
  | [last] =>
    if last = "." then .ok (.directory path true)
    else if last = ".." then .ok (.directory path.parent true)
    else .ok (.entry (path ++ [last]) slash)
  | part :: parts => do files.walk (← files.enter path part) slash parts

/-- Walk a name. -/
def locate (files : Files) (name : String) : Except SystemError Location :=
  if name.contains '\x00' then .error .nulInName
  else if maxName < name.utf8ByteSize then .error .nameTooLong
  else if name = "" then .ok (.directory [] false)
  else
    let parts := name.splitOn "/"
    files.walk (if parts.head? = some "" then Path.root else [])
      (parts.getLast? = some "") (parts.filter (· ≠ ""))

/-! ## Looking at what is there -/

/-- What lies under a name, and where. -/
def lookup (files : Files) (name : String) : Except SystemError (Path × FileNode) := do
  match ← files.locate name with
  | .directory path _ => return (path, .directory)
  | .entry path slash =>
    match ← files.look path with
    | none => throw .noSuchFile
    | some .directory => return (path, .directory)
    | some (.file content) => if slash then throw .notDirectory else return (path, .file content)

/-- Whether anything lies under a name. -/
def contains (files : Files) (name : String) : Bool := (files.lookup name).isOk

/-- The content of a file. -/
def content (files : Files) (name : String) : Except SystemError Bytes := do
  match ← files.lookup name with
  | (_, .file content) => return content
  | (_, .directory) => throw .isDirectory

/-! ## Creating -/

/-- The path under which a name may be written to, and the content of the file there, if there is
    one; with `fresh` there must not be anything. -/
def target (files : Files) (name : String) (fresh : Bool) :
    Except SystemError (Path × Option Bytes) := do
  match ← files.locate name with
  | .directory _ named => throw (if fresh && named then .fileExists else .isDirectory)
  | .entry path slash =>
    if slash then throw .isDirectory
    match ← files.look path with
    | none => return (path, none)
    | some entry =>
      if fresh then throw .fileExists
      match entry with
      | .file content => return (path, some content)
      | .directory => throw .isDirectory

/-- Create or replace a file. -/
def put (files : Files) (name : String) (content : Bytes) : Except SystemError Files := do
  let (path, _) ← files.target name false
  return files.set path (.file content)

/-- Create a directory. -/
def makeDirectory (files : Files) (name : String) : Except SystemError Files := do
  match ← files.locate name with
  | .directory _ _ => throw .fileExists
  | .entry path _ =>
    match ← files.look path with
    | some _ => throw .fileExists
    | none => return files.set path .directory

end Files

end ParallelGzip
