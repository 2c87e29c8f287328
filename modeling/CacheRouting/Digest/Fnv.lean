/-!
# FNV-1a on 32-bit words

Each byte is mixed into the low bits of the state by exclusive or, and the state
is then multiplied by an odd prime.  The avalanche step spreads the last bytes
over the high bits, which select a bucket.
-/

namespace CacheRouting

namespace Digest

def fnvBasis : UInt32 := 2166136261

def fnvPrime : UInt32 := 16777619

def fnvMix (state : UInt32) (byte : UInt8) : UInt32 :=
  (state ^^^ byte.toUInt32) * fnvPrime

def fnv1a (bytes : List UInt8) : UInt32 :=
  bytes.foldl fnvMix fnvBasis

def addShifted (amount word : UInt32) : UInt32 :=
  word + (word <<< amount)

/-- Combine a word by exclusive or with its own copy shifted down. -/
def xorShifted (amount word : UInt32) : UInt32 :=
  word ^^^ (word >>> amount)

/-- The avalanche step: additions and exclusive ors of shifted copies. -/
def avalanche (word : UInt32) : UInt32 :=
  addShifted 5 (xorShifted 17 (addShifted 3 (xorShifted 7 (addShifted 13 word))))

def fnv1aAvalanche (bytes : List UInt8) : UInt32 :=
  avalanche (fnv1a bytes)

end Digest

end CacheRouting
