import CacheRouting.Address
import CacheRouting.Bucket
import CacheRouting.Host
import CacheRouting.Journal.Event
import CacheRouting.Routing.Error
import CacheRouting.Routing.Search
import CacheRouting.Routing.Stats

/-!
# The hash ring

Each host is placed at a hundred points of a ring of 32-bit hashes.  A key goes
to the owner of the first point at or after its own hash, and past the last
point to the owner of the first.  Points that coincide are ordered by owner.
-/

namespace CacheRouting

/-- A point of the ring and the index of the host it belongs to. -/
structure RingEntry where
  point : Nat
  owner : Nat
  deriving DecidableEq, Repr, Inhabited

namespace RingEntry

/-- The entry as one number, the point in its high half. -/
def packed (entry : RingEntry) : Nat :=
  entry.point * UInt32.size + entry.owner

def precedes (first second : RingEntry) : Bool :=
  first.point < second.point ||
    (first.point == second.point && first.owner ≤ second.owner)

end RingEntry

def ringSize : Nat := UInt32.size

def pointsPerHost : Nat := 100

structure RingRouter where
  hosts : List Host
  ring : Array RingEntry
  method : HashMethod

namespace RingRouter

/-- The label from which the points of an address come.  An address on the default
port has those of its bare host. -/
def label (address : String) : String :=
  let parsed := Address.parse address
  if parsed.isDefaultPort then parsed.host else address

/-- The text whose hash is one of the points of an address. -/
def placement (address : String) (number : Nat) : String :=
  label address ++ "-" ++ toString number

def entriesOf (method : HashMethod) (host : Host) (owner : Nat) : List RingEntry :=
  (List.range pointsPerHost).map fun number =>
    ⟨method.hashText (placement host.address number), owner⟩

def placeAll (method : HashMethod) (hosts : List Host) : List RingEntry :=
  hosts.zipIdx.flatMap fun (host, owner) => entriesOf method host owner

def isSorted : List RingEntry → Bool
  | first :: second :: rest => first.precedes second && isSorted (second :: rest)
  | _ => true

/-- Place these hosts on a ring; there must be at least one. -/
def build (hosts : List Host) (method : HashMethod) : Except SchedulerError RingRouter :=
  if hosts.isEmpty then .error .noHosts
  else
    let entries := (placeAll method hosts).mergeSort RingEntry.precedes
    if isSorted entries then .ok ⟨hosts, entries.toArray, method⟩ else .error .unsortedRing

def builtEvent (router : RingRouter) : Event where
  level := .debug
  target := "memroute_scheduler::consistent"
  message := "hash ring built"
  fields := [("hosts", toString router.hosts.length), ("points", toString router.ring.size),
    ("hash", router.method.name)]

def isBefore (router : RingRouter) (hash index : Nat) : Bool :=
  (router.ring.getD index default).point < hash

/-- The index of the first entry at or after a hash; past the last entry, that of the
first. -/
def successor (router : RingRouter) (hash : Nat) : Nat :=
  let index := partitionPoint (router.isBefore hash) 0 router.ring.size
  if index = router.ring.size then 0 else index

def ownerOf (router : RingRouter) (hash : Nat) : Nat :=
  (router.ring.getD (router.successor hash) default).owner

def hostIndex (router : RingRouter) (key : String) : Nat :=
  router.ownerOf (router.method.hashText key)

def route (router : RingRouter) (key : String) : List Nat :=
  [router.hostIndex key]

def divide? (router : RingRouter) (keys : List String) : Option (Array (Array String)) :=
  divideInto? router.hosts.length router.hostIndex keys

/-- Add to the count of each owner the arc from the point before to its own, given
that point and the counts so far.  The arc past the last point belongs to `wrap`. -/
def addArcs (wrap : Nat) : (previous : Nat) → (counts : Array Nat) → List RingEntry → Array Nat
  | previous, counts, [] => counts.modify wrap (· + (ringSize - previous))
  | previous, counts, entry :: rest =>
      addArcs wrap entry.point (counts.modify entry.owner (· + (entry.point - previous))) rest

/-- How many hashes go to each host, by the lengths of the arcs. -/
def arcs (router : RingRouter) : Array Nat :=
  addArcs (router.ring.getD 0 default).owner 0 (Array.replicate router.hosts.length 0)
    router.ring.toList

/-- The share of the ring each host owns, in its own column. -/
def stats (router : RingRouter) : Stats Rat :=
  let arcs := router.arcs
  Dictionary.ofList (router.hosts.zipIdx.map fun (host, index) =>
    (host.address,
      Stats.unitRow 0 (mkRat (arcs.getD index 0) ringSize) router.hosts.length index))

end RingRouter

end CacheRouting
