import CacheRouting.Text.Digits

/-!
# Host addresses

An address is split at its last colon when a host stands before the colon and a
16-bit port after it.  Any other address is a host without a port.
-/

namespace CacheRouting

/-- The port cache servers listen on unless told otherwise. -/
def defaultPort : Nat := 11211

structure Address where
  host : String
  port : Option Nat
  deriving DecidableEq, Repr

namespace Address

def splitLastColon? : List Char → Option (List Char × List Char)
  | [] => none
  | character :: rest =>
      match splitLastColon? rest with
      | some (before, after) => some (character :: before, after)
      | none => if character = ':' then some ([], rest) else none

def parse (text : String) : Address :=
  match splitLastColon? text.toList with
  | some (host@(_ :: _), port) =>
      match Text.readUnsigned? 65536 port with
      | some number => ⟨String.ofList host, some number⟩
      | none => ⟨text, none⟩
  | _ => ⟨text, none⟩

/-- Whether the address names the default port explicitly. -/
def isDefaultPort (address : Address) : Bool :=
  address.port == some defaultPort

/-- Write an address, its port without leading zeros. -/
def display (address : Address) : String :=
  match address.port with
  | some port => address.host ++ ":" ++ String.ofList (Text.digitsOfNumber port)
  | none => address.host

end Address

end CacheRouting
