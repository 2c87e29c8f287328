/-!
# Binary search

Where a test holds up to some index and fails from there on, that index is found
by halving the range in which it can lie.
-/

namespace CacheRouting

/-- The least index from `low` to `high` at which the test fails, given that it does
not hold again after it has failed; `high` if it never fails. -/
def partitionPoint (holds : Nat → Bool) (low high : Nat) : Nat :=
  if low < high then
    let middle := (low + high) / 2
    if holds middle then partitionPoint holds (middle + 1) high
    else partitionPoint holds low middle
  else low
termination_by high - low

end CacheRouting
