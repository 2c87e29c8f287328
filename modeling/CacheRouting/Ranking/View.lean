import CacheRouting.Ranking.Weight

/-!
# The preference order of one bucket

Every bucket keeps a weight for each host and an order of all hosts, the most
preferred first.  When the weight of one host changes, that host alone moves: it
passes its neighbours one by one as long as it is strictly better, or strictly
worse, than the next of them.
-/

namespace CacheRouting

/-- The order of the hosts in one bucket and the weights it comes from. -/
structure BucketView (W : Type) where
  /-- Host indices, the most preferred first. -/
  order : List Nat
  /-- The weight of each host, by its index. -/
  weights : List W
  deriving DecidableEq

namespace BucketView

variable {W : Type} [Weight W]

def initial (hostCount : Nat) : BucketView W where
  order := List.range hostCount
  weights := List.replicate hostCount Weight.zero

def weightOf (view : BucketView W) (host : Nat) : W :=
  view.weights.getD host Weight.zero

/-- Whether no host in the list is followed at once by one of greater weight. -/
def rankedFrom (weightOf : Nat → W) : List Nat → Bool
  | first :: second :: rest =>
      Weight.atLeast (weightOf first) (weightOf second) &&
        rankedFrom weightOf (second :: rest)
  | _ => true

def isRanked (view : BucketView W) : Bool :=
  rankedFrom view.weightOf view.order

/-- The weight after a report.  A reward is averaged with the weight, so that one
spike moves it only halfway; a penalty counts in full. -/
def updatedWeight (weight amount : W) : W :=
  if Weight.atLeast amount Weight.zero then Weight.half (Weight.add weight amount)
  else Weight.add weight amount

/-- Move a host towards the front past the hosts that are strictly below it. -/
def moveForward (weightOf : Nat → W) (host : Nat) (ahead behind : List Nat) : List Nat :=
  let isBelow := fun other => Weight.below (weightOf other) (weightOf host)
  let kept := (ahead.reverse.dropWhile isBelow).reverse
  let passed := (ahead.reverse.takeWhile isBelow).reverse
  kept ++ host :: passed ++ behind

/-- Move a host towards the back past the hosts that are strictly above it. -/
def moveBackward (weightOf : Nat → W) (host : Nat) (ahead behind : List Nat) : List Nat :=
  let isAbove := fun other => Weight.below (weightOf host) (weightOf other)
  ahead ++ behind.takeWhile isAbove ++ host :: behind.dropWhile isAbove

def ahead (host : Nat) (order : List Nat) : List Nat :=
  order.takeWhile (· != host)

def behind (host : Nat) (order : List Nat) : List Nat :=
  (order.dropWhile (· != host)).drop 1

/-- The order after the weight of a host has changed from `old`, given the order
before and the weights after. -/
def reorder (weightOf : Nat → W) (old : W) (host : Nat) (order : List Nat) : List Nat :=
  if Weight.below old (weightOf host) then
    moveForward weightOf host (ahead host order) (behind host order)
  else moveBackward weightOf host (ahead host order) (behind host order)

def setWeight (view : BucketView W) (host : Nat) (weight : W) : BucketView W :=
  { view with weights := view.weights.set host weight }

/-- Count a report on a host and rank the bucket again.  The first component says
whether the host is in the bucket. -/
def report (view : BucketView W) (host : Nat) (amount : W) : Bool × BucketView W :=
  match view.weights[host]? with
  | none => (false, view)
  | some old =>
      let changed := view.setWeight host (updatedWeight old amount)
      if view.order.contains host then
        (true, { changed with order := reorder changed.weightOf old host view.order })
      else (false, changed)

end BucketView

end CacheRouting
