import CacheRouting.Text.Quoted

/-!
# Hosts

A host is identified by its address alone: two hosts with the same address are
the same host, however they are reached.
-/

namespace CacheRouting

structure Host where
  address : String
  deriving DecidableEq, Repr

namespace Host

def display (host : Host) : String := host.address

def describe (host : Host) : String :=
  "Host \x7b addr: " ++ Text.quote host.address ++ " \x7d"

end Host

end CacheRouting
