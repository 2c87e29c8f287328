import CacheRouting.Journal.Subscriber
import CacheRouting.Routing.Scheduler

/-!
# Routing questions

Questions about keys are answered in the addresses of hosts, and each answer is
told in an event of its own for the access log.
-/

namespace CacheRouting

namespace Query

def addressesFor (scheduler : Scheduler) (key : String) : List String :=
  (scheduler.hostsFor key).map (·.address)

def route (scheduler : Scheduler) (keys : List String) : Dictionary (List String) :=
  Dictionary.ofList (keys.map fun key => (key, addressesFor scheduler key))

def routeEvent (key : String) (addresses : List String) : Event where
  level := .info
  target := accessTarget
  message := "route"
  fields := [("key", key),
    ("hosts", "[" ++ ", ".intercalate (addresses.map fun address =>
      "String(" ++ Text.quote address ++ ")") ++ "]")]

def routeEvents (scheduler : Scheduler) (keys : List String) : List Event :=
  keys.map fun key => routeEvent key (addressesFor scheduler key)

/-- All groups of keys, empty ones included. -/
def divide? (scheduler : Scheduler) (keys : List String) : Option (List (List String)) :=
  (scheduler.divide? keys).map fun groups => groups.toList.map Array.toList

def divideEvent (keys : List String) (groupCount : Nat) : Event where
  level := .info
  target := accessTarget
  message := "divide"
  fields := [("keys", toString keys.length), ("groups", toString groupCount)]

end Query

end CacheRouting
