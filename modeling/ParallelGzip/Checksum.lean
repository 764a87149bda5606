import ParallelGzip.Bytes

set_option autoImplicit false

/-! # CRC-32: the checksum of a byte string

The checksum is the reflected CRC-32 of the polynomial `0xEDB88320`, inverted before and after. The
register is fed one byte at a time through a table of the 256 bytes; each entry is what eight single
bit shifts make of that byte. -/

namespace ParallelGzip

namespace Crc32

/-- The reflected generator polynomial. -/
def polynomial : UInt32 := 0xEDB88320

/-- Shift one bit out of the register. -/
def shiftBit (r : UInt32) : UInt32 :=
  if r &&& 1 = 1 then (r >>> 1) ^^^ polynomial else r >>> 1

/-- Shift one byte out of the register, which is what a zero byte of input does to it. -/
def shiftByte (r : UInt32) : UInt32 :=
  shiftBit (shiftBit (shiftBit (shiftBit (shiftBit (shiftBit (shiftBit (shiftBit r)))))))

/-- What shifting out each of the 256 bytes leaves. -/
def table : Vector UInt32 256 := Vector.ofFn fun i => shiftByte (UInt32.ofNat i.val)

/-- Feed one byte to the register. -/
def step (r : UInt32) (b : UInt8) : UInt32 :=
  table.get (r.toUInt8 ^^^ b).toFin ^^^ (r >>> 8)

end Crc32

/-- The CRC-32 of `data`, going on from the checksum `init` of what came before (0 at the start). -/
def crc32 (data : Bytes) (init : UInt32) : UInt32 := ~~~ (data.foldl Crc32.step (~~~ init))

/-- A checksum goes on over a concatenation. -/
theorem crc32_append (a b : Bytes) (init : UInt32) :
    crc32 (a ++ b) init = crc32 b (crc32 a init) := by
  simp [crc32]

@[simp] theorem crc32_nil (init : UInt32) : crc32 [] init = init := by simp [crc32]

end ParallelGzip
