import ParallelGzip.Bytes
import ParallelGzip.Options

set_option autoImplicit false

/-! # Frames: what surrounds the compressed data of a member

A written member opens with the smallest header: no optional field, no time, unknown system. It ends
with an empty final block, so that every block before it may be left open, and with the trailer: the
checksum and the length of the payload modulo 2³², both little-endian. -/

namespace ParallelGzip

namespace Frame

/-- The two bytes every member starts with. -/
def magic : Bytes := [0x1f, 0x8b]

/-- The number of the compression method. -/
def deflateMethod : UInt8 := 8

/-- The number of an unknown operating system. -/
def unknownSystem : UInt8 := 0xff

/-- The mark of the fastest compression. -/
def fastestMark : UInt8 := 4

/-- The mark of the best compression. -/
def bestMark : UInt8 := 2

/-- Length of a header without optional fields. -/
def headerLength : Nat := 10

/-- Length of a trailer. -/
def trailerLength : Nat := 8

/-- A final block without content: the bit that says final, the two of the fixed code, the seven of
    the end of the block, and padding. -/
def emptyFinalBlock : Bytes := [0x03, 0x00]

/-- A header whose only variable byte is the compression mark. -/
def headerWithMark (mark : UInt8) : Bytes :=
  magic ++ [deflateMethod, 0] ++ Bytes.littleEndian 4 0 ++ [mark, unknownSystem]

/-- The header of a member that is written in blocks. -/
def header (level : Nat) : Bytes :=
  headerWithMark (if level ≤ fastestLevel then fastestMark else 0)

/-- The header of a member that is written as a whole: the best compression is announced too. -/
def wholeHeader (level : Nat) : Bytes :=
  headerWithMark
    (if maxLevel ≤ level then bestMark else if level ≤ fastestLevel then fastestMark else 0)

/-- Checksum and length of the payload. -/
def trailer (crc : UInt32) (size : Nat) : Bytes :=
  Bytes.littleEndian 4 crc.toNat ++ Bytes.littleEndian 4 size

/-- What follows the last block of a member, together with the header of the next member if there is
    to be one. -/
def memberEnd (crc : UInt32) (size : Nat) (next : Option Nat) : Bytes :=
  emptyFinalBlock ++ trailer crc size ++
    match next with
    | some level => header level
    | none => []

@[simp] theorem length_trailer (crc : UInt32) (size : Nat) :
    (trailer crc size).length = trailerLength := by
  simp [trailer, trailerLength]

end Frame

end ParallelGzip
