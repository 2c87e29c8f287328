import CacheRouting.HashMethod
import CacheRouting.Text.Hex

/-!
# Bucket addressing

The bucket of a key is given by the top bits of its hash, so a bucket index is a
leading part of the hash.  Administrative keys start with `@` and spell the
bucket in hexadecimal digits.  A leading `?` is dropped, so that a key which
happens to start with `@` can still be hashed.
-/

namespace CacheRouting

namespace Bucket

/-- How many bits of the hash select one of `count` buckets. -/
def width (count : Nat) : Nat :=
  if count ≤ 1 then 0 else count.log2

/-- How many hexadecimal digits an administrative key spells a bucket with. -/
def digitCount (count : Nat) : Nat :=
  width count / 4

/-- The value of a byte as a hexadecimal digit; other bytes count as zero. -/
def byteValue (byte : UInt8) : Nat :=
  (Text.hexValue? (Char.ofNat byte.toNat)).getD 0

/-- The number spelled by bytes as hexadecimal digits. -/
def spelled (bytes : List UInt8) : Nat :=
  bytes.foldl (fun number byte => number * 16 + byteValue byte) 0

def topBits (bits hash : Nat) : Nat :=
  hash >>> (32 - bits)

def dropQuestionMark : List UInt8 → List UInt8
  | 0x3f :: rest => rest
  | bytes => bytes

def hashed (method : HashMethod) (count : Nat) (key : List UInt8) : Nat :=
  topBits (width count) (method.hashBytes (dropQuestionMark key)).toNat

def ofBytes (method : HashMethod) (count : Nat) (key : List UInt8) : Nat :=
  match key with
  | 0x40 :: rest =>
      if digitCount count ≤ rest.length then spelled (rest.take (digitCount count))
      else hashed method count key
  | _ => hashed method count key

def ofKey (method : HashMethod) (count : Nat) (key : String) : Nat :=
  ofBytes method count (Text.utf8 key)

end Bucket

/-- Put each item in the group it belongs to, keeping the order of the items.
There is no result when an item belongs to none of the groups. -/
def divideInto? {Item : Type} (count : Nat) (groupOf : Item → Nat) (items : List Item) :
    Option (Array (Array Item)) :=
  items.foldlM
    (fun groups item =>
      if groupOf item < groups.size then
        some (groups.modify (groupOf item) (·.push item))
      else none)
    (Array.replicate count #[])

end CacheRouting
