import ParallelGzip.Compressor

set_option autoImplicit false

/-! # Scripted compressors: blocks that say what becomes of them

A scripted compressor makes it visible which worker was given which block: it copies or stores a
block, describes it in a line of text, or takes a block apart into the checksum, the length and
the data it is to report. A block whose first bytes ask for it meets a failure or a panic
instead. -/

namespace ParallelGzip

/-- What a scripted compressor makes of a block. -/
inductive Codec
  /-- What the compressor of the library makes of it. -/
  | deflate (compressor : DeflateCompressor)
  /-- The block. -/
  | copy
  /-- The block, stored. -/
  | stored
  /-- A line with the worker, the number of the call, and length and checksum of block and
      dictionary. -/
  | trace
  /-- What follows the first twelve bytes, which are the checksum and the length to report. -/
  | dictated

/-- A scripted compressor. -/
structure ScriptedCompressor where
  codec : Codec
  /-- The lane it works on. -/
  worker : Nat
  /-- Calls so far that did not meet a scripted failure. -/
  calls : Nat := 0

namespace ScriptedCompressor

/-- Blocks that begin like this fail. -/
def failingPrefix : Bytes := "poison".toUTF8.data.toList

/-- Blocks that begin like this do not fit. -/
def overflowingPrefix : Bytes := "overflow".toUTF8.data.toList

/-- Blocks that begin like this make the worker panic. -/
def panickingPrefix : Bytes := "panic!".toUTF8.data.toList

/-- The last `width` hexadecimal digits of a number. -/
def hexDigits : (width n : Nat) → List Char
  | 0, _ => []
  | width + 1, n => hexDigits width (n / 16) ++ [Nat.digitChar (n % 16)]

/-- Length and checksum of some bytes. -/
def describe (bytes : Bytes) : String :=
  toString bytes.length ++ ":" ++ String.ofList (hexDigits 8 (crc32 bytes 0).toNat)

/-- The line that describes a call. -/
def traceLine (c : ScriptedCompressor) (raw dictionary : Bytes) : String :=
  s!"w{c.worker}.{c.calls} " ++ describe raw ++ " " ++ describe dictionary ++ "\n"

/-- What the codec makes of a block. -/
def render (c : ScriptedCompressor) (raw dictionary : Bytes) : Except CodecError CompressedBlock :=
  match c.codec with
  | .deflate compressor => compressor.compress raw dictionary
  | .copy => .ok ⟨raw, crc32 raw 0, raw.length⟩
  | .stored => .ok ⟨Deflate.store raw, crc32 raw 0, raw.length⟩
  | .trace =>
    .ok ⟨(c.traceLine raw dictionary).toUTF8.data.toList, crc32 raw 0, raw.length⟩
  | .dictated =>
    if raw.length < 12 then .error (.backend "short fake block")
    else .ok ⟨raw.drop 12, UInt32.ofNat (Bytes.ofLittleEndian (raw.take 4)),
      Bytes.ofLittleEndian ((raw.drop 4).take 8)⟩

instance : BlockCompressor ScriptedCompressor where
  compress c raw dictionary :=
    if failingPrefix.isPrefixOf raw then (.failed (.backend "injected failure"), c)
    else if overflowingPrefix.isPrefixOf raw then (.failed (.overflow raw.length), c)
    else if panickingPrefix.isPrefixOf raw then (.panicked, c)
    else
      let c' := { c with calls := c.calls + 1 }
      match c.render raw dictionary with
      | .ok block => (.block block, c')
      | .error cause => (.failed cause, c')

end ScriptedCompressor

end ParallelGzip
