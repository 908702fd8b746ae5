import Mathlib.Logic.Function.Iterate

/-!
# CRC-32

The checksum with the reflected polynomial `0xEDB88320`, register and result inverted.
-/

namespace Crc32

/-- One bit of the register. -/
def shift (crc : UInt32) : UInt32 :=
  if crc &&& 1 = 1 then (crc >>> 1) ^^^ 0xEDB88320 else crc >>> 1

/-- One byte of the input. -/
def feed (crc : UInt32) (byte : UInt8) : UInt32 := shift^[8] (crc ^^^ byte.toUInt32)

/-- The checksum of a list of bytes. -/
def crc32 (bytes : List UInt8) : UInt32 := bytes.foldl feed 0xFFFFFFFF ^^^ 0xFFFFFFFF

-- the check value of the bytes of "123456789"
example : crc32 [0x31, 0x32, 0x33, 0x34, 0x35, 0x36, 0x37, 0x38, 0x39] = 0xCBF43926 := by decide +kernel

end Crc32
