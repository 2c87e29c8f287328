import CacheRouting.Bucket
import CacheRouting.Host
import CacheRouting.Journal.Event
import CacheRouting.Routing.Error
import CacheRouting.Routing.Stats

/-!
# Routing by assignment

An operator says which buckets each host serves.  A key gets all hosts of its
bucket, rotated by its hash so that the first choice is spread over them.
-/

namespace CacheRouting

structure ManualRouter where
  hosts : List Host
  /-- The indices of the hosts of each bucket, in ascending order. -/
  members : Array (List Nat)
  method : HashMethod

namespace ManualRouter

/-- Check the addresses and indices of an assignment and count its buckets: one more
than the largest index, and at least `count`. -/
def countBuckets (seen : List String) (count : Nat) :
    List (Host × List Nat) → Except SchedulerError Nat
  | [] => .ok count
  | (host, served) :: rest =>
      if host.address ∈ seen then .error (.duplicateHost host.address)
      else
        match served.max? with
        | none => countBuckets (host.address :: seen) count rest
        | some largest =>
            if Config.maxBucketCount ≤ largest then .error (.invalidBucketCount (largest + 1))
            else countBuckets (host.address :: seen) (max count (largest + 1)) rest

/-- Enter a host in a bucket, once only.  Hosts are entered in the order of their
indices, the latest standing first. -/
def enter (host : Nat) (members : List Nat) : List Nat :=
  if members.head? = some host then members else host :: members

def enterServed (host : Nat) (served : List Nat) (buckets : Array (List Nat)) :
    Array (List Nat) :=
  served.foldl (fun buckets bucket => buckets.modify bucket (enter host)) buckets

def enterAll (count : Nat) (assignment : List (Host × List Nat)) : Array (List Nat) :=
  (assignment.zipIdx.foldl (fun buckets entry => enterServed entry.2 entry.1.2 buckets)
    (Array.replicate count [])).map List.reverse

/-- Route by this assignment, in which every bucket must be served. -/
def build (assignment : List (Host × List Nat)) (method : HashMethod) :
    Except SchedulerError ManualRouter :=
  if assignment.isEmpty then .error .noHosts
  else
    match countBuckets [] 1 assignment with
    | .error error => .error error
    | .ok count =>
        let members := enterAll count assignment
        match members.toList.findIdx? List.isEmpty with
        | some bucket => .error (.emptyBucket bucket)
        | none => .ok ⟨assignment.map (·.1), members, method⟩

def bucketCount (router : ManualRouter) : Nat :=
  router.members.size

def builtEvent (router : ManualRouter) : Event where
  level := .debug
  target := "memroute_scheduler::manual"
  message := "manual bucket table built"
  fields := [("hosts", toString router.hosts.length), ("buckets", toString router.bucketCount),
    ("hash", router.method.name)]

def bucketOf (router : ManualRouter) (key : String) : Nat :=
  Bucket.ofKey router.method router.bucketCount key

/-- The indices of the hosts of a key.  The rotation uses the whole hash of the key
as it is, not the bits that choose the bucket. -/
def route (router : ManualRouter) (key : String) : List Nat :=
  let members := router.members.getD (router.bucketOf key) []
  members.rotateRight (router.method.hashText key % members.length)

def divide? (router : ManualRouter) (keys : List String) : Option (Array (Array String)) :=
  divideInto? router.bucketCount router.bucketOf keys

def stats (router : ManualRouter) : Stats Rat :=
  Dictionary.ofList (router.hosts.zipIdx.map fun (host, index) =>
    (host.address,
      router.members.toList.map fun members => if members.contains index then 1 else 0))

end ManualRouter

end CacheRouting
