/-!
# Messages in blocks

Both block digests pad a message to a multiple of sixty-four bytes: a single one
bit, zeros, and the length of the message in bits as the last eight bytes.  They
differ in the order of the bytes of a word.
-/

namespace CacheRouting

namespace Digest

inductive ByteOrder
  | lowFirst
  | highFirst
  deriving DecidableEq

/-- The low `count` bytes of a number, the lowest first. -/
def lowBytes : (count : Nat) → (number : Nat) → List UInt8
  | 0, _ => []
  | count + 1, number => UInt8.ofNat (number % 256) :: lowBytes count (number / 256)

namespace ByteOrder

def bytes (order : ByteOrder) (count number : Nat) : List UInt8 :=
  match order with
  | .lowFirst => lowBytes count number
  | .highFirst => (lowBytes count number).reverse

def word (order : ByteOrder) (first second third fourth : UInt8) : UInt32 :=
  match order with
  | .lowFirst =>
      first.toUInt32 ||| second.toUInt32 <<< 8 ||| third.toUInt32 <<< 16 |||
        fourth.toUInt32 <<< 24
  | .highFirst =>
      fourth.toUInt32 ||| third.toUInt32 <<< 8 ||| second.toUInt32 <<< 16 |||
        first.toUInt32 <<< 24

/-- The words of a message, four bytes each. -/
def words (order : ByteOrder) : List UInt8 → List UInt32
  | first :: second :: third :: fourth :: rest =>
      order.word first second third fourth :: order.words rest
  | _ => []

end ByteOrder

def pad (order : ByteOrder) (message : List UInt8) : List UInt8 :=
  message ++ 0x80 :: List.replicate ((119 - message.length % 64) % 64) 0 ++
    order.bytes 8 (8 * message.length)

/-- Fold over the sixteen-word blocks of a padded message. -/
def foldBlocks {State : Type} (compress : State → Array UInt32 → State) :
    (state : State) → (words : List UInt32) → State
  | state,
    w0 :: w1 :: w2 :: w3 :: w4 :: w5 :: w6 :: w7 :: w8 :: w9 :: w10 :: w11 :: w12 :: w13 ::
      w14 :: w15 :: rest =>
      foldBlocks compress
        (compress state
          #[w0, w1, w2, w3, w4, w5, w6, w7, w8, w9, w10, w11, w12, w13, w14, w15]) rest
  | state, _ => state

def rotateLeft (amount word : UInt32) : UInt32 :=
  word <<< amount ||| word >>> (32 - amount)

end Digest

end CacheRouting
