import CacheRouting.Text.Quoted
import CacheRouting.Text.Utf8

/-!
# Requests to a cache node

A value is asked for by its key on one line.  Keys that could not stand on such a
line are refused before anything is sent.
-/

namespace CacheRouting

namespace Memcache

inductive Error
  | connect (address : String)
  | io
  | timeout (name : String)
  | protocol (reason : String)
  | invalidKey (key : String)
  | server (reason : String)
  deriving DecidableEq, Repr

namespace Error

/-- The words of the failure, where they are not the system's own. -/
def message? : Error → Option String
  | connect _ => none
  | io => none
  | timeout name => some ("request to " ++ name ++ " timed out")
  | protocol reason => some ("protocol error: " ++ reason)
  | invalidKey key => some ("invalid key: " ++ Text.quote key)
  | server reason => some ("server error: " ++ reason)

end Error

def maxKeyLength : Nat := 250

/-- Whether a byte may stand in a key: no control and no blank. -/
def isKeyByte (byte : UInt8) : Bool :=
  0x20 < byte && byte != 0x7f

def isValidKey (key : String) : Bool :=
  let bytes := Text.utf8 key
  !bytes.isEmpty && bytes.length ≤ maxKeyLength && bytes.all isKeyByte

def request (key : String) : List UInt8 :=
  Text.utf8 ("get " ++ key ++ "\r\n")

end Memcache

end CacheRouting
