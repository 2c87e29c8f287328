import CacheRouting.Auto.Dispatch
import CacheRouting.Bucket
import CacheRouting.Host
import CacheRouting.Journal.Event
import CacheRouting.Routing.Error
import CacheRouting.Routing.Stats

/-!
# Routing by experience

The auto scheduler keeps a preference order of all hosts for each bucket and
learns it from reports: how operations went, and which buckets hosts say they
hold.  Keys are routed by the published orders.
-/

namespace CacheRouting

structure AutoRouter (W : Type) where
  hosts : List Host
  bucketCount : Nat
  method : HashMethod
  dispatch : Dispatch W

structure AutoOptions where
  /-- The time between two discovery passes, in milliseconds. -/
  interval : Nat
  /-- How many messages the mailbox holds; at least one in any case. -/
  mailbox : Nat
  /-- Whether hosts are asked for their buckets. -/
  discovery : Bool

inductive Report (W : Type)
  /-- It names no host of the scheduler. -/
  | unknownHost
  /-- Its amount is not finite. -/
  | notFinite
  | feedback (item : Feedback W)
  deriving DecidableEq

namespace AutoRouter

def firstRepeated? (seen : List String) : List Host → Option String
  | [] => none
  | host :: rest =>
      if host.address ∈ seen then some host.address
      else firstRepeated? (host.address :: seen) rest

variable {W : Type} [Weight W]

/-- Route over these hosts, which must be distinct, with an accepted bucket count.
`hasRuntime` says whether there is anything that can run the worker.  A mailbox that is
too large is found out last, when it is made. -/
def build (hosts : List Host) (bucketCount : Nat) (method : HashMethod)
    (options : AutoOptions) (hasRuntime : Bool) : Construction (AutoRouter W) :=
  if !Config.acceptsBucketCount bucketCount then .error (.invalidBucketCount bucketCount)
  else if hosts.isEmpty then .error .noHosts
  else
    match firstRepeated? [] hosts with
    | some address => .error (.duplicateHost address)
    | none =>
        if !hasRuntime then .error .noRuntime
        else if Mailbox.maxCapacity < options.mailbox then .broken
        else
          .ok ⟨hosts, bucketCount, method,
            Dispatch.initial hosts.length bucketCount options.mailbox⟩

def startedEvent (router : AutoRouter W) (options : AutoOptions) : Event where
  level := .info
  target := "memroute_scheduler::auto"
  message := "auto scheduler started"
  fields := [("hosts", toString router.hosts.length),
    ("buckets", toString router.bucketCount), ("hash", router.method.name),
    ("discovery", toString options.discovery),
    ("interval_secs", toString (options.interval / 1000))]

def bucketOf (router : AutoRouter W) (key : String) : Nat :=
  Bucket.ofKey router.method router.bucketCount key

def view? (router : AutoRouter W) (bucket : Nat) : Option (BucketView W) :=
  router.dispatch.load? bucket

def route (router : AutoRouter W) (key : String) : List Nat :=
  ((router.view? (router.bucketOf key)).map (·.order)).getD []

def divide? (router : AutoRouter W) (keys : List String) : Option (Array (Array String)) :=
  divideInto? router.bucketCount router.bucketOf keys

def stats (router : AutoRouter W) : Stats W :=
  Dictionary.ofList (router.hosts.zipIdx.map fun (host, index) =>
    (host.address, router.dispatch.published.views.toList.map (·.weightOf index)))

/-- The report on a host, given by its index, for the bucket of a key. -/
def reportAt (router : AutoRouter W) (index : Nat) (key : String) (amount : W) : Report W :=
  if Weight.isFinite amount then .feedback ⟨index, router.bucketOf key, amount⟩ else .notFinite

/-- The report on a host, given by its address. -/
def reportOn (router : AutoRouter W) (address key : String) (amount : W) : Report W :=
  match router.hosts.findIdx? fun host => host.address == address with
  | none => .unknownHost
  | some index => router.reportAt index key amount

end AutoRouter

end CacheRouting
