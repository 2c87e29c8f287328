import CacheRouting.Digest.Block

/-!
# SHA-256

Eight words of state pass through sixty-four rounds for each block.  The sixteen
words of a block are first extended to sixty-four, each from four earlier ones.
-/

namespace CacheRouting

namespace Digest

namespace Sha256

structure State where
  a : UInt32
  b : UInt32
  c : UInt32
  d : UInt32
  e : UInt32
  f : UInt32
  g : UInt32
  h : UInt32

def initial : State :=
  ⟨0x6a09e667, 0xbb67ae85, 0x3c6ef372, 0xa54ff53a,
    0x510e527f, 0x9b05688c, 0x1f83d9ab, 0x5be0cd19⟩

/-- The round constants: fractional parts of the cube roots of the first primes. -/
def constants : Array UInt32 :=
  #[0x428a2f98, 0x71374491, 0xb5c0fbcf, 0xe9b5dba5, 0x3956c25b, 0x59f111f1,
    0x923f82a4, 0xab1c5ed5, 0xd807aa98, 0x12835b01, 0x243185be, 0x550c7dc3,
    0x72be5d74, 0x80deb1fe, 0x9bdc06a7, 0xc19bf174, 0xe49b69c1, 0xefbe4786,
    0x0fc19dc6, 0x240ca1cc, 0x2de92c6f, 0x4a7484aa, 0x5cb0a9dc, 0x76f988da,
    0x983e5152, 0xa831c66d, 0xb00327c8, 0xbf597fc7, 0xc6e00bf3, 0xd5a79147,
    0x06ca6351, 0x14292967, 0x27b70a85, 0x2e1b2138, 0x4d2c6dfc, 0x53380d13,
    0x650a7354, 0x766a0abb, 0x81c2c92e, 0x92722c85, 0xa2bfe8a1, 0xa81a664b,
    0xc24b8b70, 0xc76c51a3, 0xd192e819, 0xd6990624, 0xf40e3585, 0x106aa070,
    0x19a4c116, 0x1e376c08, 0x2748774c, 0x34b0bcb5, 0x391c0cb3, 0x4ed8aa4a,
    0x5b9cca4f, 0x682e6ff3, 0x748f82ee, 0x78a5636f, 0x84c87814, 0x8cc70208,
    0x90befffa, 0xa4506ceb, 0xbef9a3f7, 0xc67178f2]

def rotateRight (amount word : UInt32) : UInt32 :=
  rotateLeft (32 - amount) word

def extend (schedule : Array UInt32) (index : Nat) : Array UInt32 :=
  let fifteenth := schedule.getD (index - 15) 0
  let second := schedule.getD (index - 2) 0
  let low := rotateRight 7 fifteenth ^^^ rotateRight 18 fifteenth ^^^ fifteenth >>> 3
  let high := rotateRight 17 second ^^^ rotateRight 19 second ^^^ second >>> 10
  schedule.push (schedule.getD (index - 16) 0 + low + schedule.getD (index - 7) 0 + high)

def schedule (block : Array UInt32) : Array UInt32 :=
  ((List.range 48).map (· + 16)).foldl extend block

def round (words : Array UInt32) (state : State) (number : Nat) : State :=
  let high := rotateRight 6 state.e ^^^ rotateRight 11 state.e ^^^ rotateRight 25 state.e
  let choice := (state.e &&& state.f) ^^^ (~~~state.e &&& state.g)
  let first := state.h + high + choice + constants.getD number 0 + words.getD number 0
  let low := rotateRight 2 state.a ^^^ rotateRight 13 state.a ^^^ rotateRight 22 state.a
  let majority := (state.a &&& state.b) ^^^ (state.a &&& state.c) ^^^ (state.b &&& state.c)
  ⟨first + low + majority, state.a, state.b, state.c, state.d + first, state.e, state.f,
    state.g⟩

def compress (state : State) (block : Array UInt32) : State :=
  let mixed := (List.range 64).foldl (round (schedule block)) state
  ⟨state.a + mixed.a, state.b + mixed.b, state.c + mixed.c, state.d + mixed.d,
    state.e + mixed.e, state.f + mixed.f, state.g + mixed.g, state.h + mixed.h⟩

def finalState (message : List UInt8) : State :=
  foldBlocks compress initial (ByteOrder.highFirst.words (pad .highFirst message))

end Sha256

def swapBytes (word : UInt32) : UInt32 :=
  (word <<< 24) ||| ((word &&& (0xff00 : UInt32)) <<< 8) |||
    ((word >>> 8) &&& (0xff00 : UInt32)) ||| (word >>> 24)

/-- The first four bytes of the SHA-256 digest as a word, lowest byte first.  The
digest writes its words highest byte first. -/
def sha256Word (message : List UInt8) : UInt32 :=
  swapBytes (Sha256.finalState message).a

end Digest

end CacheRouting
