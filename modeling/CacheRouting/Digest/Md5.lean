import CacheRouting.Digest.Block

/-!
# MD5

Four words of state pass through sixty-four rounds for each block.  A round adds
a mixture of three of the words, one word of the block and a constant to the
fourth, and rotates the sum.
-/

namespace CacheRouting

namespace Digest

namespace Md5

structure State where
  a : UInt32
  b : UInt32
  c : UInt32
  d : UInt32

def initial : State := ⟨0x67452301, 0xefcdab89, 0x98badcfe, 0x10325476⟩

/-- The additive constants: the sines of one to sixty-four, scaled to words. -/
def constants : Array UInt32 :=
  #[0xd76aa478, 0xe8c7b756, 0x242070db, 0xc1bdceee, 0xf57c0faf, 0x4787c62a,
    0xa8304613, 0xfd469501, 0x698098d8, 0x8b44f7af, 0xffff5bb1, 0x895cd7be,
    0x6b901122, 0xfd987193, 0xa679438e, 0x49b40821, 0xf61e2562, 0xc040b340,
    0x265e5a51, 0xe9b6c7aa, 0xd62f105d, 0x02441453, 0xd8a1e681, 0xe7d3fbc8,
    0x21e1cde6, 0xc33707d6, 0xf4d50d87, 0x455a14ed, 0xa9e3e905, 0xfcefa3f8,
    0x676f02d9, 0x8d2a4c8a, 0xfffa3942, 0x8771f681, 0x6d9d6122, 0xfde5380c,
    0xa4beea44, 0x4bdecfa9, 0xf6bb4b60, 0xbebfbc70, 0x289b7ec6, 0xeaa127fa,
    0xd4ef3085, 0x04881d05, 0xd9d4d039, 0xe6db99e5, 0x1fa27cf8, 0xc4ac5665,
    0xf4292244, 0x432aff97, 0xab9423a7, 0xfc93a039, 0x655b59c3, 0x8f0ccc92,
    0xffeff47d, 0x85845dd1, 0x6fa87e4f, 0xfe2ce6e0, 0xa3014314, 0x4e0811a1,
    0xf7537e82, 0xbd3af235, 0x2ad7d2bb, 0xeb86d391]

def rotations : Array UInt32 :=
  #[7, 12, 17, 22, 5, 9, 14, 20, 4, 11, 16, 23, 6, 10, 15, 21]

def mixture (group : Nat) (b c d : UInt32) : UInt32 :=
  match group with
  | 0 => (b &&& c) ||| (~~~b &&& d)
  | 1 => (d &&& b) ||| (~~~d &&& c)
  | 2 => b ^^^ c ^^^ d
  | _ => c ^^^ (b ||| ~~~d)

def wordIndex (group round : Nat) : Nat :=
  match group with
  | 0 => round % 16
  | 1 => (5 * round + 1) % 16
  | 2 => (3 * round + 5) % 16
  | _ => (7 * round) % 16

def round (block : Array UInt32) (state : State) (number : Nat) : State :=
  let group := number / 16
  let sum := state.a + mixture group state.b state.c state.d +
    constants.getD number 0 + block.getD (wordIndex group number) 0
  ⟨state.d, state.b + rotateLeft (rotations.getD (4 * group + number % 4) 0) sum,
    state.b, state.c⟩

def compress (state : State) (block : Array UInt32) : State :=
  let mixed := (List.range 64).foldl (round block) state
  ⟨state.a + mixed.a, state.b + mixed.b, state.c + mixed.c, state.d + mixed.d⟩

def finalState (message : List UInt8) : State :=
  foldBlocks compress initial (ByteOrder.lowFirst.words (pad .lowFirst message))

end Md5

/-- The first four bytes of the MD5 digest as a word, lowest byte first.  The
digest writes its words in that order, so this is its first word. -/
def md5Word (message : List UInt8) : UInt32 :=
  (Md5.finalState message).a

end Digest

end CacheRouting
