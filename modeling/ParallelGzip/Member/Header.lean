import ParallelGzip.Checksum
import ParallelGzip.Error
import ParallelGzip.Member.Frame
import ParallelGzip.Stream.Parser

set_option autoImplicit false

/-! # Member headers and trailers: reading what surrounds the compressed data

The fixed part of a header is ten bytes. Flags in it announce an extra field with its length, a
name and a comment up to a NUL, and a check of the header itself. All of it is skipped; only the
checksum of what has been read is kept. The trailer must fit the payload. -/

namespace ParallelGzip

/-- What is wrong with a header or a trailer. -/
inductive MemberDefect
  /-- The fixed part does not open a member that can be read. -/
  | header
  /-- A name or comment does not end. -/
  | fieldTooLong
  /-- A checksum or the length of the payload is wrong. -/
  | checksum
  deriving DecidableEq, Repr

/-- The failure that reports a defect. -/
def MemberDefect.toIo : MemberDefect → IoError
  | header => .text .invalidInput "invalid gzip header"
  | fieldTooLong => .text .invalidInput "gzip header field too long"
  | checksum => .text .invalidInput "corrupt gzip stream does not have a matching checksum"

namespace MemberHeader

/-- The flag of a check of the header. -/
def checkFlag : UInt8 := 2

/-- The flag of an extra field. -/
def extraFlag : UInt8 := 4

/-- The flag of a name. -/
def nameFlag : UInt8 := 8

/-- The flag of a comment. -/
def commentFlag : UInt8 := 16

/-- Flags without a meaning, which must not be set. -/
def reservedFlags : UInt8 := 0xe0

/-- The longest name or comment. -/
def maxTextLength : Nat := 65535

/-- Read `n` bytes; `crc` is the checksum of the header before and, in the end, behind them. -/
def skip : (n : Nat) → (crc : UInt32) → Parser UInt8 MemberDefect UInt32
  | 0, crc => .done crc
  | n + 1, crc => .need (n + 1) fun b => skip n (crc32 [b] crc)

/-- Read a text up to its NUL. At most `room` bytes may come before it; a byte too many is
    refused. -/
def skipText : (room : Nat) → (crc : UInt32) → Parser UInt8 MemberDefect UInt32
  | 0, crc => .need 1 fun b => if b = 0 then .done (crc32 [b] crc) else .refuse .fieldTooLong
  | room + 1, crc => .need 1 fun b =>
    if b = 0 then .done (crc32 [b] crc) else skipText room (crc32 [b] crc)

/-- Read an extra field behind its length. -/
def skipExtra (crc : UInt32) : Parser UInt8 MemberDefect UInt32 := do
  let length ← Parser.symbols 2
  skip (Bytes.ofLittleEndian length) (crc32 length crc)

/-- Read the check: the low half of the checksum of everything before it. -/
def check (crc : UInt32) : Parser UInt8 MemberDefect Unit := do
  let field ← Parser.symbols 2
  if Bytes.ofLittleEndian field = crc.toNat % 0x10000 then .done () else .fail .checksum

/-- Read a field if its flag is set. -/
def optional (flags flag : UInt8) (field : UInt32 → Parser UInt8 MemberDefect UInt32)
    (crc : UInt32) : Parser UInt8 MemberDefect UInt32 :=
  if flags &&& flag ≠ 0 then field crc else .done crc

/-- The flags of a fixed part, if it opens a member that can be read. -/
def flags? (fixed : Bytes) : Option UInt8 :=
  match fixed with
  | id1 :: id2 :: method :: flags :: _ =>
    if [id1, id2] = Frame.magic ∧ method = Frame.deflateMethod ∧ flags &&& reservedFlags = 0 then
      some flags
    else none
  | _ => none

/-- Read a header. -/
def read : Parser UInt8 MemberDefect Unit := do
  let fixed ← Parser.symbols Frame.headerLength
  match flags? fixed with
  | none => .fail .header
  | some flags =>
    let crc ← optional flags extraFlag skipExtra (crc32 fixed 0)
    let crc ← optional flags nameFlag (skipText maxTextLength) crc
    let crc ← optional flags commentFlag (skipText maxTextLength) crc
    if flags &&& checkFlag ≠ 0 then check crc else .done ()

end MemberHeader

namespace MemberTrailer

/-- Read the trailer of a member whose payload has this checksum and length. -/
def read (crc : UInt32) (size : Nat) : Parser UInt8 MemberDefect Unit := do
  let trailer ← Parser.symbols Frame.trailerLength
  if trailer = Frame.trailer crc size then .done () else .fail .checksum

end MemberTrailer

end ParallelGzip
