import CacheRouting.Memcache.Reply

/-!
# Fetching a value

Each request has a connection of its own.  What the network does is given: it
refuses the connection, or it carries the request to a node and the node's bytes
back.
-/

namespace CacheRouting

namespace Memcache

inductive Network
  | refuses
  | connects (reply : Stream)
  deriving DecidableEq

/-- What has been done to reach the node, and the answer to the caller. -/
structure Exchange where
  /-- The address a connection was asked of, if any was. -/
  contacted : Option String
  sent : List UInt8
  answer : Except Error (Option Item)

def get (network : Network) (address key : String) : Exchange :=
  if isValidKey key then
    match network with
    | .refuses => ⟨some address, [], .error (.connect address)⟩
    | .connects reply => ⟨some address, request key, readReply address key reply⟩
  else ⟨none, [], .error (.invalidKey key)⟩

end Memcache

end CacheRouting
