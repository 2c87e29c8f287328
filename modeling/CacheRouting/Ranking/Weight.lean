/-!
# Weights

Ranking needs little of the numbers it ranks by: to add, to halve and to compare
them.  Doubles are the weights that are used; any other carrier of these
operations ranks in the same way.
-/

namespace CacheRouting

class Weight (W : Type) where
  zero : W
  add : W → W → W
  half : W → W
  /-- Strictly less. -/
  below : W → W → Bool
  /-- Greater or equal, which is not the same as not less: an undefined value is
  neither. -/
  atLeast : W → W → Bool
  isFinite : W → Bool

instance : Weight Float where
  zero := 0
  add first second := first + second
  half weight := weight / 2
  below first second := decide (first < second)
  atLeast first second := decide (second ≤ first)
  isFinite weight := weight.isFinite

end CacheRouting
