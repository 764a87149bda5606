import ParallelGzip.Error
import ParallelGzip.Text.Blank
import ParallelGzip.Text.Quoted

set_option autoImplicit false

/-! # Options: levels, sizes and thread counts

The settings of readers and writers, their defaults, and the checks they pass before anything else
happens. `WriterOptions.validate` looks at the level, the block size, the queue size and the
number of workers, in this order, and reports the first that is out of range. -/

namespace ParallelGzip

/-! ## Limits -/

/-- The lowest compression level, which only stores. -/
def minLevel : Nat := 0

/-- The highest compression level. -/
def maxLevel : Nat := 9

/-- The compression level unless another is asked for. -/
def defaultLevel : Nat := 6

/-- Levels up to this one are announced as fastest in the header of a member. -/
def fastestLevel : Nat := 1

/-- Bytes handed to one worker at a time unless another number is asked for. -/
def defaultBlockSize : Nat := 1024 * 1024

/-- How far back a match may reach, and the length of the dictionary given to a block. -/
def windowSize : Nat := 32 * 1024

/-- The largest block size: a block and its compressed form must fit 32-bit counters. -/
def maxBlockSize : Nat := 0x7fffffff

/-- Room for the compressed form of one block: a tenth more than the block, at least 500 bytes. -/
def compressBufferSize (blockSize : Nat) : Nat := blockSize + max (blockSize / 10) 500

/-- The largest number that counts as a size. -/
def maxSize : Nat := 0xffffffffffffffff

/-- Room for the compressed form of one block, if it still counts as a size. -/
def compressBufferSize? (blockSize : Nat) : Option Nat :=
  if compressBufferSize blockSize ≤ maxSize then some (compressBufferSize blockSize) else none

/-- The largest number of bytes that can be asked for at once. -/
def maxAllocation : Nat := 0x7fffffffffffffff

/-- Whether `count` places of `placeSize` bytes each can be asked for at once. -/
def canAllocate (placeSize count : Nat) : Bool := placeSize * count ≤ maxAllocation

/-! ## Machines -/

/-- What a program that starts threads finds on its machine. Memory is not part of it: whatever can
    be asked for is taken to be there. -/
structure Machine where
  /-- How many threads it offers to run at a time. -/
  cores : Nat
  cores_pos : 0 < cores
  /-- The reason for which it does not start a writer's thread with this number, if there is one. -/
  refusal? : Nat → Option String

/-- A machine with four cores, which starts every thread. -/
def Machine.ordinary : Machine := ⟨4, by decide, fun _ => none⟩

/-! ## Thread counts -/

/-- A requested number of workers. -/
inductive Threads
  /-- As many as the machine offers. -/
  | auto
  /-- Exactly this many; zero asks for work without threads. -/
  | fixed (count : Nat)
  deriving DecidableEq, Repr

namespace Threads

/-- The number of workers on a machine. -/
def resolve (machine : Machine) : Threads → Nat
  | auto => machine.cores
  | fixed count => count

/-- Whether no threads are wanted. -/
def isDisabled (threads : Threads) : Bool := threads = fixed 0

/-- The number written by decimal digits, if there is at least one and no other character. -/
def numeral? (digits : List Char) : Option Nat :=
  if digits ≠ [] && digits.all Char.isDigit then
    some (digits.foldl (fun n c => 10 * n + (c.toNat - '0'.toNat)) 0)
  else none

/-- The number written by an optional sign and decimal digits. -/
def integer? : List Char → Option Int
  | '-' :: digits => (numeral? digits).map fun n => -(n : Int)
  | '+' :: digits => (numeral? digits).map fun n => (n : Int)
  | digits => (numeral? digits).map fun n => (n : Int)

/-- Whether a text is the word `auto`, in any letter case. -/
def isAutoWord (text : List Char) : Bool := text.map Char.toLower = ['a', 'u', 't', 'o']

/-- Read a thread count: `auto`, a signed 64-bit number, of which the negative ones mean `auto` too,
    or neither. Blanks around it do not count. -/
def parse (text : String) : Except Error Threads :=
  let trimmed := trimBlanks text.toList
  let refused : Except Error Threads := .error (.invalidMode
    ("thread count must be a number or 'auto', got " ++ quoted (String.ofList trimmed)))
  if isAutoWord trimmed then .ok auto
  else
    match integer? trimmed with
    | none => refused
    | some n =>
      if n < -0x8000000000000000 || 0x8000000000000000 ≤ n then refused
      else if n < 0 then .ok auto
      else .ok (fixed n.toNat)

end Threads

/-! ## Checks -/

/-- Refuse a level out of range. -/
def validateLevel (level : Nat) : Except Error Nat :=
  if minLevel ≤ level ∧ level ≤ maxLevel then .ok level else .error (.invalidLevel level)

/-- Refuse a block size of zero or beyond the maximum. -/
def validateBlockSize (blockSize : Nat) : Except Error Nat :=
  if blockSize = 0 then .error (.invalidBlockSize "block size must be at least 1 byte")
  else if maxBlockSize < blockSize then
    .error (.invalidBlockSize s!"block size {blockSize} exceeds the maximum of {maxBlockSize}")
  else .ok blockSize

/-- Refuse a queue without room. -/
def validateQueueSize (queueSize : Nat) : Except Error Nat :=
  if queueSize = 0 then .error (.invalidBlockSize "queue size must be at least 1")
  else .ok queueSize

/-- Refuse to run without a worker. -/
def validateWorkers (count : Nat) : Except Error Nat :=
  if count = 0 then .error (.invalidThreads 0) else .ok count

/-! ## Settings of a writer -/

/-- Settings of a writer. -/
structure WriterOptions where
  level : Nat := defaultLevel
  threads : Threads := .fixed 1
  blockSize : Nat := defaultBlockSize
  /-- Room in the input queue and in the output queue of every worker. -/
  queueSize : Nat := 1
  deriving DecidableEq, Repr

/-- Check every setting and tell the number of workers on a machine. -/
def WriterOptions.validate (options : WriterOptions) (machine : Machine) : Except Error Nat := do
  let _ ← validateLevel options.level
  let _ ← validateBlockSize options.blockSize
  let _ ← validateQueueSize options.queueSize
  validateWorkers (options.threads.resolve machine)

/-! ## Settings of a reader -/

/-- Settings of a reader. -/
structure ReaderOptions where
  /-- Zero asks for decoding without a worker; the number does not matter otherwise. -/
  threads : Threads := .fixed 1
  /-- Bytes handed from the worker to the caller at a time. -/
  blockSize : Nat := defaultBlockSize
  /-- How many such pieces the worker may be ahead. -/
  queueSize : Nat := 2
  deriving DecidableEq, Repr

/-- Check every setting that matters. -/
def ReaderOptions.validate (options : ReaderOptions) : Except Error Unit := do
  let _ ← validateBlockSize options.blockSize
  let _ ← validateQueueSize options.queueSize

end ParallelGzip
