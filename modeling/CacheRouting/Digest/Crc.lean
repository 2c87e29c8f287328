/-!
# The reflected 32-bit cyclic redundancy check

The checksum divides the message by the IEEE polynomial, lowest bit first, with
all bits of the state inverted before and after.
-/

namespace CacheRouting

namespace Digest

/-- The IEEE polynomial, reflected. -/
def crcPolynomial : UInt32 := 0xedb88320

def crcBit (state : UInt32) : UInt32 :=
  if state &&& 1 = 0 then state >>> 1 else (state >>> 1) ^^^ crcPolynomial

def crcMix (state : UInt32) (byte : UInt8) : UInt32 :=
  Nat.repeat crcBit 8 (state ^^^ byte.toUInt32)

def crc32 (bytes : List UInt8) : UInt32 :=
  bytes.foldl crcMix 0xffffffff ^^^ 0xffffffff

end Digest

end CacheRouting
