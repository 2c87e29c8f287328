import CacheRouting.Ranking.Weight

/-!
# Laws of weights

Weights need not all be comparable: an undefined value is neither less than,
equal to, nor greater than anything.  A weight that is at least itself is called
a number.  Numbers are totally preordered, and neither a finite summand nor
halving leads out of them.
-/

namespace CacheRouting

namespace Weight

variable {W : Type} [Weight W]

/-- A weight that can be compared, with itself to begin with. -/
def IsNumber (weight : W) : Prop :=
  atLeast weight weight = true

end Weight

/-- Weights whose numbers are totally preordered and closed under what ranking does
to them. -/
class LawfulWeight (W : Type) [Weight W] : Prop where
  zero_isNumber : Weight.IsNumber (Weight.zero : W)
  atLeast_or : ∀ {first second : W}, Weight.IsNumber first → Weight.IsNumber second →
    Weight.atLeast first second = true ∨ Weight.atLeast second first = true
  atLeast_trans : ∀ {first second third : W}, Weight.atLeast first second = true →
    Weight.atLeast second third = true → Weight.atLeast first third = true
  below_eq_not_atLeast : ∀ {first second : W}, Weight.IsNumber first →
    Weight.IsNumber second → Weight.below first second = !Weight.atLeast first second
  add_isNumber : ∀ {weight amount : W}, Weight.IsNumber weight →
    Weight.isFinite amount = true → Weight.IsNumber (Weight.add weight amount)
  half_isNumber : ∀ {weight : W}, Weight.IsNumber weight →
    Weight.IsNumber (Weight.half weight)

namespace LawfulWeight

variable {W : Type} [Weight W] [LawfulWeight W]

theorem atLeast_of_below {first second : W} (firstNumber : Weight.IsNumber first)
    (secondNumber : Weight.IsNumber second) (below : Weight.below first second = true) :
    Weight.atLeast second first = true := by
  rw [below_eq_not_atLeast firstNumber secondNumber] at below
  rcases atLeast_or firstNumber secondNumber with atLeast | atLeast
  · simp [atLeast] at below
  · exact atLeast

theorem atLeast_of_not_below {first second : W} (firstNumber : Weight.IsNumber first)
    (secondNumber : Weight.IsNumber second) (notBelow : ¬ Weight.below first second = true) :
    Weight.atLeast first second = true := by
  rw [below_eq_not_atLeast firstNumber secondNumber] at notBelow
  simpa using notBelow

theorem not_atLeast_of_below {first second : W} (firstNumber : Weight.IsNumber first)
    (secondNumber : Weight.IsNumber second) (below : Weight.below first second = true) :
    ¬ Weight.atLeast first second = true := by
  rw [below_eq_not_atLeast firstNumber secondNumber] at below
  simpa using below

end LawfulWeight

end CacheRouting
