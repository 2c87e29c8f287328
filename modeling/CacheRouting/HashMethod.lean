import CacheRouting.Digest.Crc
import CacheRouting.Digest.Fnv
import CacheRouting.Digest.Md5
import CacheRouting.Digest.Sha256
import CacheRouting.Text.Utf8

/-!
# Hash methods

A scheduler hashes keys with one of a fixed list of methods, chosen by name.
Every method maps bytes to a 32-bit word.
-/

namespace CacheRouting

inductive HashMethod
  | fnv1a
  | fnv1a1
  | sha256
  | md5
  | crc32
  deriving DecidableEq, Repr

namespace HashMethod

def all : List HashMethod := [fnv1a, fnv1a1, sha256, md5, crc32]

/-- The method a configuration uses unless it names one. -/
def default : HashMethod := fnv1a1

def name : HashMethod → String
  | fnv1a => "fnv1a"
  | fnv1a1 => "fnv1a1"
  | sha256 => "sha256"
  | md5 => "md5"
  | crc32 => "crc32"

def ofName? (name : String) : Option HashMethod :=
  all.find? fun method => method.name == name

def hashBytes : HashMethod → List UInt8 → UInt32
  | fnv1a => Digest.fnv1a
  | fnv1a1 => Digest.fnv1aAvalanche
  | sha256 => Digest.sha256Word
  | md5 => Digest.md5Word
  | crc32 => Digest.crc32

def hashText (method : HashMethod) (text : String) : Nat :=
  (method.hashBytes (Text.utf8 text)).toNat

end HashMethod

end CacheRouting
