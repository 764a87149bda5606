import ParallelGzip.Files
import ParallelGzip.OpenMode
import ParallelGzip.Stream.Source
import ParallelGzip.Stream.BufferedSink

set_option autoImplicit false

/-! # Handles: open files as sources and sinks

A handle remembers how far it has come, and is in touch with the store at given moments only: a
file open for writing collects what is written until `Files.store` brings it into the store, and a
file open for reading sees what `Files.refresh` found there last. -/

namespace ParallelGzip

/-! ## Reading -/

/-- A file open for reading. -/
structure InputFile where
  path : Path
  /-- Bytes read so far. -/
  offset : Nat
  /-- The content behind them; none for a directory, which cannot be read. -/
  rest : Option Bytes

namespace InputFile

/-- Ask for at most `n` bytes. -/
def read (f : InputFile) (n : Nat) : ReadResult × InputFile :=
  match f.rest with
  | none => (.failed (.system .isDirectory), f)
  | some rest =>
    (.delivered (rest.take n),
      { f with offset := f.offset + (rest.take n).length, rest := some (rest.drop n) })

/-- How many bytes are still to come. -/
def supply (f : InputFile) : Nat := (f.rest.getD []).length

theorem supply_read (f : InputFile) (n : Nat) :
    (f.read n).2.supply + (f.read n).1.count = f.supply := by
  unfold read
  split
  · next h => simp [supply, h]
  · next rest h =>
    simp only [supply, h, Option.getD_some, ReadResult.count_delivered, List.length_drop,
      List.length_take]
    omega

instance : Source InputFile where
  read := read
  supply := supply
  patience _ := 0
  supply_read f n := Nat.le_of_eq (supply_read f n)
  patience_read f n _ h := by
    unfold read at h
    split at h <;> cases h

end InputFile

/-- Open a file for reading. A directory can be opened, too. -/
def Files.openInput (files : Files) (name : String) : Except SystemError InputFile := do
  match ← files.lookup name with
  | (path, .file content) => return ⟨path, 0, some content⟩
  | (path, .directory) => return ⟨path, 0, none⟩

/-- Let a handle see the content of its file. -/
def Files.refresh (files : Files) (f : InputFile) : InputFile :=
  match files.find? f.path with
  | some (.file content) => { f with rest := some (content.drop f.offset) }
  | _ => f

/-! ## Writing -/

/-- A file open for writing. -/
structure OutputFile where
  path : Path
  /-- Whether everything goes to the end of the file, wherever that is. -/
  appending : Bool
  /-- Where the next bytes go otherwise. -/
  offset : Nat
  /-- What has been written and not been stored yet. -/
  unstored : Array UInt8

/-- An open file takes everything. -/
instance : Sink OutputFile where
  write f bytes := (.wrote bytes.length, { f with unstored := f.unstored ++ bytes })
  flush f := (.done, f)
  release f := f
  patience _ := 0
  patience_write _ _ _ h := by simp at h

/-- Open a file for writing in a mode other than reading. -/
def Files.openOutput (files : Files) (mode : OpenMode) (name : String) :
    Except SystemError (OutputFile × Files) := do
  let (path, content) ← files.target name (mode = .exclusive)
  let kept := if mode = .append then content.getD [] else []
  return (⟨path, mode = .append, 0, #[]⟩, files.set path (.file kept))

/-- Replace what `content` holds from `offset` on by `bytes`, as far as they reach. A gap is
    filled with zeros. -/
def overwrite (content : Bytes) (offset : Nat) (bytes : Bytes) : Bytes :=
  content.take offset ++ List.replicate (offset - content.length) 0 ++ bytes
    ++ content.drop (offset + bytes.length)

/-- Bring what has been written to a handle into the store. -/
def Files.store (files : Files) (f : OutputFile) : Files × OutputFile :=
  if f.unstored = #[] then (files, f)
  else
    match files.find? f.path with
    | some (.file content) =>
      let bytes := f.unstored.toList
      let content := if f.appending then content ++ bytes else overwrite content f.offset bytes
      (files.set f.path (.file content),
        { f with offset := f.offset + bytes.length, unstored := #[] })
    | _ => (files, f)

end ParallelGzip
