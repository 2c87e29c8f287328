import CacheRouting.Ranking.View

/-!
# Routing tables

A routing table has one preference order for each bucket.  One worker changes
it; after each change the touched bucket is copied into the published table,
from which readers load whole buckets.
-/

namespace CacheRouting

structure Feedback (W : Type) where
  host : Nat
  bucket : Nat
  amount : W
  deriving DecidableEq

structure RoutingTable (W : Type) where
  views : Array (BucketView W)
  deriving DecidableEq

namespace RoutingTable

variable {W : Type} [Weight W]

def initial (hostCount bucketCount : Nat) : RoutingTable W where
  views := Array.replicate bucketCount (BucketView.initial hostCount)

def bucketCount (table : RoutingTable W) : Nat :=
  table.views.size

def view? (table : RoutingTable W) (bucket : Nat) : Option (BucketView W) :=
  table.views[bucket]?

def store (table : RoutingTable W) (bucket : Nat) (view : BucketView W) : RoutingTable W where
  views := table.views.setIfInBounds bucket view

/-- Count a report and rank its bucket again.  The first component says whether the
table has the bucket and the host. -/
def apply (table : RoutingTable W) (item : Feedback W) : Bool × RoutingTable W :=
  match table.view? item.bucket with
  | none => (false, table)
  | some view =>
      let (applied, view) := view.report item.host item.amount
      (applied, table.store item.bucket view)

end RoutingTable

end CacheRouting
