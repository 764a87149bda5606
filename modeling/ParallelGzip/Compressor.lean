import ParallelGzip.Checksum
import ParallelGzip.Deflate.Encode

set_option autoImplicit false

/-! # Compressors: one block at a time

A compressor turns a block into compressed data that is left open and ends on a byte boundary. It is
given the end of the block before as dictionary, and may keep state from one block to the next. -/

namespace ParallelGzip

/-- A compressed block. -/
structure CompressedBlock where
  data : Bytes
  /-- The checksum of the block. -/
  crc : UInt32
  /-- The length of the block. -/
  length : Nat
  deriving DecidableEq

/-- Why a block could not be compressed. -/
inductive CodecError
  /-- The compressed form does not fit the room for it. -/
  | overflow (capacity : Nat)
  | backend (reason : String)
  deriving DecidableEq, Repr

/-- The text of a codec error. -/
def CodecError.message : CodecError → String
  | overflow capacity => s!"compressed output exceeds buffer size of {capacity} bytes"
  | backend reason => reason

/-- The error of a block that could not be compressed. -/
def CodecError.inBlock (number : Nat) : CodecError → Error
  | overflow capacity => .bufferOverflow number capacity
  | backend reason => .compression number reason

/-- What compressing a block came to. -/
inductive CompressResult
  | block (compressed : CompressedBlock)
  | failed (cause : CodecError)
  | panicked

/-- Something that compresses blocks. -/
class BlockCompressor (κ : Type) where
  compress : κ → (raw dictionary : Bytes) → CompressResult × κ

/-- A compressor with a fixed amount of room for the compressed form of a block. -/
structure DeflateCompressor where
  level : Nat
  capacity : Nat

namespace DeflateCompressor

/-- Compress a block. A compressed form that takes all the room counts as too long. -/
def compress (c : DeflateCompressor) (raw dictionary : Bytes) :
    Except CodecError CompressedBlock :=
  let data := Deflate.encode (Deflate.effort c.level) raw (windowOf dictionary)
  if c.capacity ≤ data.length then .error (.overflow c.capacity)
  else .ok ⟨data, crc32 raw 0, raw.length⟩

instance : BlockCompressor DeflateCompressor where
  compress c raw dictionary :=
    match c.compress raw dictionary with
    | .ok block => (.block block, c)
    | .error cause => (.failed cause, c)

end DeflateCompressor

end ParallelGzip
