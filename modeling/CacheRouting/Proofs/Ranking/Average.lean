import CacheRouting.Proofs.Ranking.Rounding

/-!
# Sums and averages of weights

To a weight a finite amount is added, and if it is no penalty the sum is halved.
Both results stand on the same side of every finite double as the exact ones do,
unless the sum overflows.  So a penalty does not raise a weight, and an average
is not below both the weight and the amount.
-/

namespace CacheRouting

namespace Double

open Float.Model Float.Model.UnpackedFloat

theorem onGrid_value {number : UnpackedFloat} (canonical : Canonical number) :
    OnGrid (value number) := by
  cases canonical with
  | zero sign => exact ⟨0, 0, by decide, by decide, by simp [value]⟩
  | @finite sign mantissa exponent positive canonical =>
      refine ⟨mantissa, exponent, canonical.lt, canonical.atLeast, ?_⟩
      have magnitudePos := magnitude_pos positive exponent
      cases sign <;> simp [value_finite, Sign.apply, abs_of_pos magnitudePos]

theorem onGrid_two_mul {number : Rat} (onGrid : OnGrid number) : OnGrid (2 * number) := by
  obtain ⟨mantissa, exponent, small, atLeast, absEq⟩ := onGrid
  refine ⟨mantissa, exponent + 1, small, by omega, ?_⟩
  rw [mul_two_zpow_succ, abs_mul, absEq, abs_of_pos two_pos, mul_assoc]

/-- A rounded number is packed on the same side of every finite double as the exact one. -/
theorem IsRounding.place_same_side {number : Float} {unrounded : Rat} {rounded : UnpackedFloat}
    (rounding : IsRounding unrounded rounded) (finite : number.isFinite = true) :
    (value number.toModel.unpack ≤ unrounded →
      place number.toModel.unpack ≤ place (Float.Model.pack rounded).unpack) ∧
    (unrounded ≤ value number.toModel.unpack →
      place (Float.Model.pack rounded).unpack ≤ place number.toModel.unpack) := by
  have onGrid := onGrid_value (canonical_unpack finite)
  obtain ⟨notAbove, notBelow⟩ := place_unpack_pack finite rounding.canonical
  exact ⟨fun atMost => notAbove (rounding.le_value _ onGrid atMost),
    fun atLeast => notBelow (rounding.value_le _ onGrid atLeast)⟩

theorem isNaN_eq_false_of_isFinite {number : Float} (finite : number.isFinite = true) :
    number.isNaN = false := by
  have canonical := canonical_unpack finite
  change number.toModel.unpack.isNaN = false
  generalize number.toModel.unpack = unpacked at canonical ⊢
  cases canonical <;> rfl

/-- What is not finite is NaN or infinite. -/
theorem unpack_of_not_isFinite {number : Float} (notFinite : number.isFinite = false) :
    number.toModel.unpack = .notANumber ∨ ∃ sign, number.toModel.unpack = .infinity sign := by
  change number.toModel.unpack.isFinite = false at notFinite
  generalize number.toModel.unpack = unpacked at notFinite ⊢
  cases unpacked with
  | notANumber => exact Or.inl rfl
  | infinity sign => exact Or.inr ⟨sign, rfl⟩
  | zero sign => cases notFinite
  | finite sign mantissa exponent positive => cases notFinite

theorem le_iff_value_le {first second : Float} (finite : first.isFinite = true)
    (otherFinite : second.isFinite = true) :
    first ≤ second ↔ value first.toModel.unpack ≤ value second.toModel.unpack := by
  rw [le_iff, place_le_place_iff (canonical_unpack finite) (canonical_unpack otherFinite)]
  simp only [isNaN_eq_false_of_isFinite finite, isNaN_eq_false_of_isFinite otherFinite, true_and]

theorem lt_iff_value_lt {first second : Float} (finite : first.isFinite = true)
    (otherFinite : second.isFinite = true) :
    first < second ↔ value first.toModel.unpack < value second.toModel.unpack := by
  rw [lt_iff, ← not_le, place_le_place_iff (canonical_unpack otherFinite) (canonical_unpack finite),
    not_le]
  simp only [isNaN_eq_false_of_isFinite finite, isNaN_eq_false_of_isFinite otherFinite, true_and]

theorem place_between_infinities {number : Float} (finite : number.isFinite = true) :
    place (.infinity .negative) < place number.toModel.unpack ∧
      place number.toModel.unpack < place (.infinity .positive) := by
  have canonical := canonical_unpack finite
  generalize number.toModel.unpack = unpacked at canonical ⊢
  cases canonical with
  | zero sign => simp [place, Prod.Lex.toLex_lt_toLex]
  | finite sign positive => cases sign <;> simp [place, Prod.Lex.toLex_lt_toLex]

theorem unpack_add (first second : Float) :
    (first + second).toModel.unpack =
      (Float.Model.pack (UnpackedFloat.add Format.binary64 first.toModel.unpack
        second.toModel.unpack)).unpack :=
  rfl

/-- What is not finite stays as it is when a finite amount is added. -/
theorem unpack_add_of_not_isFinite {weight amount : Float} (notFinite : weight.isFinite = false)
    (finite : amount.isFinite = true) :
    (weight + amount).toModel.unpack = weight.toModel.unpack := by
  have canonical := canonical_unpack finite
  rw [unpack_add]
  generalize amount.toModel.unpack = summand at canonical ⊢
  rcases unpack_of_not_isFinite notFinite with isNaN | ⟨sign, isInfinite⟩
  · rw [isNaN]
    simp [UnpackedFloat.add, unpack_pack_notANumber]
  · rw [isInfinite]
    cases canonical <;> simp [UnpackedFloat.add, unpack_pack_infinity]

theorem not_isFinite_add {weight amount : Float} (notFinite : weight.isFinite = false)
    (finite : amount.isFinite = true) : (weight + amount).isFinite = false :=
  (congrArg UnpackedFloat.isFinite (unpack_add_of_not_isFinite notFinite finite)).trans notFinite

section Sum

variable {weight amount : Float}

/-- A finite sum stands for the rounded exact sum. -/
theorem isRounding_unpack_add (weightFinite : weight.isFinite = true)
    (amountFinite : amount.isFinite = true) (finite : (weight + amount).isFinite = true) :
    IsRounding (value weight.toModel.unpack + value amount.toModel.unpack)
      (weight + amount).toModel.unpack := by
  have rounding := isRounding_add (canonical_unpack weightFinite) (canonical_unpack amountFinite)
  rw [unpack_add, unpack_pack_of_isFinite rounding.canonical finite]
  exact rounding

/-- A sum stands on the same side of every finite double as the exact sum. -/
theorem place_add_same_side (weightFinite : weight.isFinite = true)
    (amountFinite : amount.isFinite = true) {number : Float} (finite : number.isFinite = true) :
    (value number.toModel.unpack ≤ value weight.toModel.unpack + value amount.toModel.unpack →
      place number.toModel.unpack ≤ place (weight + amount).toModel.unpack) ∧
    (value weight.toModel.unpack + value amount.toModel.unpack ≤ value number.toModel.unpack →
      place (weight + amount).toModel.unpack ≤ place number.toModel.unpack) :=
  (isRounding_add (canonical_unpack weightFinite) (canonical_unpack amountFinite)).place_same_side
    finite

end Sum

theorem unpack_half (number : Float) :
    (number / 2).toModel.unpack =
      (Float.Model.pack (UnpackedFloat.div Format.binary64 number.toModel.unpack
        (.finite .positive (2 ^ 52) (-51) (by decide)))).unpack :=
  rfl

theorem unpack_half_of_not_isFinite {number : Float} (notFinite : number.isFinite = false) :
    (number / 2).toModel.unpack = number.toModel.unpack := by
  rw [unpack_half]
  rcases unpack_of_not_isFinite notFinite with isNaN | ⟨sign, isInfinite⟩
  · rw [isNaN]
    rfl
  · rw [isInfinite]
    cases sign <;> rfl

theorem isFinite_of_isFinite_half {number : Float} (finite : (number / 2).isFinite = true) :
    number.isFinite = true := by
  by_contra notFinite
  have unpacked := unpack_half_of_not_isFinite (Bool.eq_false_of_not_eq_true notFinite)
  exact notFinite ((congrArg UnpackedFloat.isFinite unpacked).symm.trans finite)

/-- A half stands on the same side of every finite double as the exact half. -/
theorem place_half_same_side {sum number : Float} (sumFinite : sum.isFinite = true)
    (finite : number.isFinite = true) :
    (value number.toModel.unpack ≤ value sum.toModel.unpack / 2 →
      place number.toModel.unpack ≤ place (sum / 2).toModel.unpack) ∧
    (value sum.toModel.unpack / 2 ≤ value number.toModel.unpack →
      place (sum / 2).toModel.unpack ≤ place number.toModel.unpack) :=
  (isRounding_half (canonical_unpack sumFinite)).place_same_side finite

section Average

variable {weight amount number : Float}

/-- An average with an amount that is not negative is no less than what the exact average is no
less than.  A sum that overflows does so upwards. -/
theorem place_le_place_average (weightFinite : weight.isFinite = true)
    (amountFinite : amount.isFinite = true) (notNegative : 0 ≤ value amount.toModel.unpack)
    (finite : number.isFinite = true)
    (atMost : 2 * value number.toModel.unpack ≤
      value weight.toModel.unpack + value amount.toModel.unpack) :
    place number.toModel.unpack ≤ place ((weight + amount) / 2).toModel.unpack := by
  by_cases sumFinite : (weight + amount).isFinite = true
  · have onGrid := onGrid_two_mul (onGrid_value (canonical_unpack finite))
    have rounding := isRounding_unpack_add weightFinite amountFinite sumFinite
    have sumAtLeast := rounding.le_value _ onGrid atMost
    exact (place_half_same_side sumFinite finite).1 (by linarith)
  · have notFinite := Bool.eq_false_of_not_eq_true sumFinite
    have notBelow := (place_add_same_side weightFinite amountFinite weightFinite).1 (by linarith)
    have defined : (weight + amount).toModel.unpack.isNaN = false :=
      isNaN_unpack_pack (isNaN_add (isNaN_eq_false_of_isFinite weightFinite) amountFinite)
    rw [unpack_half_of_not_isFinite notFinite]
    rcases unpack_of_not_isFinite notFinite with isNaN | ⟨sign, isInfinite⟩
    · rw [isNaN] at defined
      cases defined
    · rw [isInfinite] at notBelow ⊢
      cases sign with
      | negative => exact absurd notBelow (not_le.mpr (place_between_infinities weightFinite).1)
      | positive => exact (place_between_infinities finite).2.le

/-- An average that is finite is no greater than what the exact average is no greater than. -/
theorem place_average_le_place (weightFinite : weight.isFinite = true)
    (amountFinite : amount.isFinite = true)
    (averageFinite : ((weight + amount) / 2).isFinite = true) (finite : number.isFinite = true)
    (atLeast : value weight.toModel.unpack + value amount.toModel.unpack ≤
      2 * value number.toModel.unpack) :
    place ((weight + amount) / 2).toModel.unpack ≤ place number.toModel.unpack := by
  have sumFinite := isFinite_of_isFinite_half averageFinite
  have onGrid := onGrid_two_mul (onGrid_value (canonical_unpack finite))
  have rounding := isRounding_unpack_add weightFinite amountFinite sumFinite
  have sumAtMost := rounding.value_le _ onGrid atLeast
  exact (place_half_same_side sumFinite finite).2 (by linarith)

theorem unpack_average_of_not_isFinite (notFinite : weight.isFinite = false)
    (amountFinite : amount.isFinite = true) :
    ((weight + amount) / 2).toModel.unpack = weight.toModel.unpack := by
  rw [unpack_half_of_not_isFinite (not_isFinite_add notFinite amountFinite),
    unpack_add_of_not_isFinite notFinite amountFinite]

/-- A penalty does not raise a weight. -/
theorem not_lt_add (finite : amount.isFinite = true) (negative : amount < 0) :
    ¬ weight < weight + amount := by
  intro raised
  have placed := ((lt_iff _ _).mp raised).2
  by_cases weightFinite : weight.isFinite = true
  · have below : value amount.toModel.unpack < 0 := (lt_iff_value_lt finite rfl).mp negative
    have notAbove := (place_add_same_side weightFinite finite weightFinite).2 (by linarith)
    exact absurd placed (not_lt.mpr notAbove)
  · rw [unpack_add_of_not_isFinite (Bool.eq_false_of_not_eq_true weightFinite) finite] at placed
    exact lt_irrefl _ placed

/-- The average with a reward that is no less than the weight does not lower it. -/
theorem not_average_lt (finite : amount.isFinite = true) (positive : 0 < amount)
    (atMost : weight.isFinite = true → weight ≤ amount) : ¬ (weight + amount) / 2 < weight := by
  intro lowered
  have placed := ((lt_iff _ _).mp lowered).2
  by_cases weightFinite : weight.isFinite = true
  · have above : 0 < value amount.toModel.unpack := (lt_iff_value_lt rfl finite).mp positive
    have ordered := (le_iff_value_le weightFinite finite).mp (atMost weightFinite)
    have notBelow := place_le_place_average weightFinite finite above.le weightFinite (by linarith)
    exact absurd placed (not_lt.mpr notBelow)
  · rw [unpack_average_of_not_isFinite (Bool.eq_false_of_not_eq_true weightFinite) finite] at placed
    exact lt_irrefl _ placed

/-- The average with a reward that is less than the weight is no less than the reward. -/
theorem not_average_lt_amount (finite : amount.isFinite = true) (positive : 0 < amount)
    (weightFinite : weight.isFinite = true) (below : amount ≤ weight) :
    ¬ (weight + amount) / 2 < amount := by
  intro lowered
  have above : 0 < value amount.toModel.unpack := (lt_iff_value_lt rfl finite).mp positive
  have ordered := (le_iff_value_le finite weightFinite).mp below
  have notBelow := place_le_place_average weightFinite finite above.le finite (by linarith)
  exact absurd ((lt_iff _ _).mp lowered).2 (not_lt.mpr notBelow)

/-- The average with a reward that is no less than the weight is no greater than the reward, unless
it is infinite. -/
theorem average_le_amount (finite : amount.isFinite = true)
    (atMost : weight.isFinite = true → weight ≤ amount)
    (averageFinite : ((weight + amount) / 2).isFinite = true) : (weight + amount) / 2 ≤ amount := by
  have weightFinite : weight.isFinite = true := by
    by_contra notFinite
    have unpacked := unpack_average_of_not_isFinite (Bool.eq_false_of_not_eq_true notFinite) finite
    exact notFinite ((congrArg UnpackedFloat.isFinite unpacked).symm.trans averageFinite)
  have ordered := (le_iff_value_le weightFinite finite).mp (atMost weightFinite)
  refine (le_iff _ _).mpr ⟨⟨isNaN_eq_false_of_isFinite averageFinite,
    isNaN_eq_false_of_isFinite finite⟩, ?_⟩
  exact place_average_le_place weightFinite finite averageFinite finite (by linarith)

end Average

end Double

end CacheRouting
