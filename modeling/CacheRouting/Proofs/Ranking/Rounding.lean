import CacheRouting.Proofs.Ranking.Canonical

/-!
# Rounding

A sum or a half of doubles is rounded to one of the two multiples of a power of
two between which it lies, the power that leaves 53 bits or the least there is.
No number that has no more bits lies between these two, so rounding passes none:
a rounded number stands on the same side of every double as the exact one.
-/

namespace CacheRouting

namespace Double

open Float.Model Float.Model.UnpackedFloat

/-- Whether a number has the digits of a double, if perhaps too large an exponent. -/
def OnGrid (number : Rat) : Prop :=
  ∃ (mantissa : Nat) (exponent : Int), mantissa < 2 ^ 53 ∧ -1074 ≤ exponent ∧
    |number| = mantissa * 2 ^ exponent

/-- A canonical form that lies on the same side as a number of every number that needs no
rounding. -/
structure IsRounding (number : Rat) (rounded : UnpackedFloat) : Prop where
  canonical : Canonical rounded
  le_value : ∀ other, OnGrid other → other ≤ number → other ≤ value rounded
  value_le : ∀ other, OnGrid other → number ≤ other → value rounded ≤ other

theorem mul_two_zpow_succ (number : Rat) (exponent : Int) :
    number * 2 ^ (exponent + 1) = 2 * number * 2 ^ exponent := by
  rw [zpow_add_one₀ (by norm_num)]
  ring

/-- What is left when a number is cut off to a multiple of a power of two, and whether anything
was cut off. -/
structure Represents (extended : ExtendedMantissa) (exponent : Int) (number : Rat) : Prop where
  mantissa_le : extended.mantissa * 2 ^ exponent ≤ number
  lt_succ : number < (extended.mantissa + 1) * 2 ^ exponent
  exact_iff : extended.accuracy = .exact ↔ number = extended.mantissa * 2 ^ exponent

theorem accuracy_eq_exact_iff (extended : ExtendedMantissa) :
    extended.accuracy = .exact ↔ extended.roundBit = false ∧ extended.stickyBit = false := by
  obtain ⟨mantissa, roundBit, stickyBit⟩ := extended
  cases roundBit <;> cases stickyBit <;> simp [ExtendedMantissa.accuracy]

theorem Represents.shiftRightOne {extended : ExtendedMantissa} {exponent : Int} {number : Rat}
    (represents : Represents extended exponent number) :
    Represents extended.shiftRightOne (exponent + 1) number := by
  obtain ⟨mantissaLe, ltSucc, exactIff⟩ := represents
  have positive := two_zpow_pos exponent
  have shifted : extended.shiftRightOne.mantissa = extended.mantissa / 2 := rfl
  have shiftedExact : extended.shiftRightOne.accuracy = .exact ↔
      extended.mantissa % 2 = 0 ∧ extended.accuracy = .exact := by
    rw [accuracy_eq_exact_iff, accuracy_eq_exact_iff]
    simp [ExtendedMantissa.shiftRightOne]
  have parts : (extended.mantissa : Rat) =
      2 * (extended.mantissa / 2 : Nat) + (extended.mantissa % 2 : Nat) := by
    exact_mod_cast (Nat.div_add_mod extended.mantissa 2).symm
  have bit : extended.mantissa % 2 = 0 ∨ extended.mantissa % 2 = 1 := by omega
  rw [parts] at mantissaLe ltSucc exactIff
  refine ⟨?_, ?_, ?_⟩ <;> rw [shifted, mul_two_zpow_succ]
  · rcases bit with even | odd
    · simpa [even] using mantissaLe
    · rw [odd] at mantissaLe
      push_cast at mantissaLe
      linarith
  · rcases bit with even | odd
    · rw [even] at ltSucc
      push_cast at ltSucc
      linarith
    · rw [odd] at ltSucc
      push_cast at ltSucc
      linarith
  · rw [shiftedExact, exactIff]
    rcases bit with even | odd
    · simp [even]
    · -- the bit that falls off is part of the number
      rw [odd] at mantissaLe
      push_cast at mantissaLe
      simp only [odd, one_ne_zero, false_and, false_iff]
      intro same
      linarith

theorem Represents.shiftRight {extended : ExtendedMantissa} {exponent : Int} {number : Rat}
    (represents : Represents extended exponent number) (count : Nat) :
    Represents (extended >>> count) (exponent + count) number := by
  change Represents (Nat.repeat ExtendedMantissa.shiftRightOne count extended) _ _
  induction count with
  | zero => simpa [Nat.repeat] using represents
  | succ count ih =>
      rw [Nat.repeat, Nat.cast_succ, ← add_assoc]
      exact ih.shiftRightOne

theorem roundedMantissa_cases (extended : ExtendedMantissa) :
    extended.roundedMantissa = extended.mantissa ∨
      extended.roundedMantissa = extended.mantissa + 1 ∧ extended.accuracy ≠ .exact := by
  obtain ⟨mantissa, roundBit, stickyBit⟩ := extended
  cases roundBit <;> cases stickyBit <;>
    simp only [ExtendedMantissa.roundedMantissa, ExtendedMantissa.accuracy,
      Accuracy.roundToNearestEven] <;> grind

/-- Rounding passes no multiple of the power of two that numbers are cut off at. -/
theorem Represents.roundedMantissa_passes_no_multiple {extended : ExtendedMantissa} {exponent : Int}
    {number : Rat} (represents : Represents extended exponent number) (count : Nat) :
    (count * 2 ^ exponent ≤ number → count ≤ extended.roundedMantissa) ∧
      (number ≤ count * 2 ^ exponent → extended.roundedMantissa ≤ count) := by
  obtain ⟨mantissaLe, ltSucc, exactIff⟩ := represents
  have positive := two_zpow_pos exponent
  constructor
  · intro atMost
    have less : (count : Rat) < extended.mantissa + 1 :=
      lt_of_mul_lt_mul_right (lt_of_le_of_lt atMost ltSucc) positive.le
    have lessNat : count < extended.mantissa + 1 := by exact_mod_cast less
    rcases roundedMantissa_cases extended with down | ⟨up, -⟩ <;> omega
  · intro atLeast
    have notLess : (extended.mantissa : Rat) ≤ count :=
      le_of_mul_le_mul_right (mantissaLe.trans atLeast) positive
    have notLessNat : extended.mantissa ≤ count := by exact_mod_cast notLess
    rcases roundedMantissa_cases extended with down | ⟨up, inexact⟩
    · omega
    · -- the number is not the multiple below it, so it is not at most that one
      have different : count ≠ extended.mantissa := by
        rintro rfl
        exact inexact (exactIff.mpr (le_antisymm atLeast mantissaLe))
      omega

/-- The exponent to which a mantissa is shifted. -/
theorem targetExponent_eq (mantissa : Nat) (exponent : Int) :
    Format.binary64.targetExponent (totalExponent mantissa exponent) =
      max (mantissa.log2 + exponent - 52) (-1074) := by
  simp only [Format.targetExponent, totalExponent, Format.mantissaBits, Format.minExponent]
  norm_num
  omega

/-- A number that is cut off where its leading bit is the 53rd, or at the least exponent. -/
theorem Represents.isCanonical {extended : ExtendedMantissa} {mantissa : Nat} {exponent : Int}
    {number : Rat} {target : Int} (represents : Represents extended target number)
    (mantissaLe : mantissa * 2 ^ exponent ≤ number) (ltSucc : number < (mantissa + 1) * 2 ^ exponent)
    (isTarget : target = max (mantissa.log2 + exponent - 52) (-1074)) (exponentLe : exponent ≤ target) :
    IsCanonical extended.mantissa target := by
  have positive := two_zpow_pos target
  have mantissaLt : mantissa + 1 ≤ 2 ^ (mantissa.log2 + 1) := Nat.lt_log2_self
  refine ⟨?_, by omega, ?_⟩
  · have below : (extended.mantissa : Rat) * 2 ^ target < 2 ^ 53 * 2 ^ target := by
      calc
        (extended.mantissa : Rat) * 2 ^ target ≤ number := represents.mantissa_le
        _ < (mantissa + 1) * 2 ^ exponent := ltSucc
        _ ≤ 2 ^ (mantissa.log2 + 1) * 2 ^ exponent := by
          exact_mod_cast mul_two_zpow_le_mul exponent mantissaLt
        _ = 2 ^ (((mantissa.log2 + 1 : Nat) : Int) + exponent) := two_pow_mul_two_zpow _ _
        _ ≤ 2 ^ (((53 : Nat) : Int) + target) := by
          refine zpow_le_zpow_right₀ (by norm_num) ?_
          push_cast
          omega
        _ = 2 ^ 53 * 2 ^ target := (two_pow_mul_two_zpow _ _).symm
    have less := lt_of_mul_lt_mul_right below positive.le
    exact_mod_cast less
  · by_cases least : target = -1074
    · exact Or.inr least
    · left
      have notZero : mantissa ≠ 0 := by
        rintro rfl
        simp at isTarget
        omega
      have log2Le : 2 ^ mantissa.log2 ≤ mantissa := Nat.log2_self_le notZero
      have above : (2 : Rat) ^ 52 * 2 ^ target < (extended.mantissa + 1) * 2 ^ target := by
        calc
          (2 : Rat) ^ 52 * 2 ^ target = 2 ^ (((52 : Nat) : Int) + target) := two_pow_mul_two_zpow _ _
          _ = 2 ^ ((mantissa.log2 : Int) + exponent) := by
            congr 1
            push_cast
            omega
          _ = 2 ^ mantissa.log2 * 2 ^ exponent := (two_pow_mul_two_zpow _ _).symm
          _ ≤ mantissa * 2 ^ exponent := by exact_mod_cast mul_two_zpow_le_mul exponent log2Le
          _ ≤ number := mantissaLe
          _ < (extended.mantissa + 1) * 2 ^ target := represents.lt_succ
      have less := lt_of_mul_lt_mul_right above positive.le
      have lessNat : 2 ^ 52 < extended.mantissa + 1 := by exact_mod_cast less
      omega

/-- The carry of rounding up is shifted out again, and nothing is lost. -/
theorem shiftToTargetExponent_of_le {mantissa : Nat} {exponent : Int} (atMost : mantissa ≤ 2 ^ 53)
    (atLeast : -1074 ≤ exponent) (full : 2 ^ 52 ≤ mantissa ∨ exponent = -1074) :
    ∃ shifted target, shiftToTargetExponent Format.binary64 mantissa exponent .exact =
        (⟨shifted, false, false⟩, target) ∧ IsCanonical shifted target ∧
      (shifted : Rat) * 2 ^ target = mantissa * 2 ^ exponent := by
  rw [shiftToTargetExponent, targetExponent_eq, shiftToExponent]
  rcases Nat.lt_or_eq_of_le atMost with less | rfl
  · have log2Le := log2_le_of_lt less
    have stays : (max ((mantissa.log2 : Int) + exponent - 52) (-1074) - exponent).toNat = 0 := by omega
    rw [stays]
    exact ⟨mantissa, exponent, by simp [ExtendedMantissa.ofMantissaAndAccuracy]; rfl,
      ⟨less, atLeast, full⟩, rfl⟩
  · have carries : (max (((2 ^ 53 : Nat).log2 : Int) + exponent - 52) (-1074) - exponent).toNat = 1 := by
      rw [Nat.log2_two_pow]
      omega
    rw [carries]
    refine ⟨2 ^ 52, exponent + 1, rfl, ⟨by norm_num, by omega, Or.inl le_rfl⟩, ?_⟩
    rw [mul_two_zpow_succ]
    norm_num

/-- Rounding where the 53rd bit is passes no number that has no more digits. -/
theorem Represents.roundedMantissa_same_side {extended : ExtendedMantissa} {target : Int}
    {number : Rat} (represents : Represents extended target number)
    (canonical : IsCanonical extended.mantissa target) {mantissa : Nat} {exponent : Int}
    (small : mantissa < 2 ^ 53) (atLeast : -1074 ≤ exponent) :
    ((mantissa : Rat) * 2 ^ exponent ≤ number →
      (mantissa : Rat) * 2 ^ exponent ≤ extended.roundedMantissa * 2 ^ target) ∧
    (number ≤ (mantissa : Rat) * 2 ^ exponent →
      (extended.roundedMantissa : Rat) * 2 ^ target ≤ mantissa * 2 ^ exponent) := by
  have positive := two_zpow_pos target
  rcases Int.lt_or_le exponent target with less | notLess
  · have full : 2 ^ 52 ≤ extended.mantissa := canonical.full.resolve_right (by omega)
    have below := mul_two_zpow_lt_of_lt less small full
    have notDown : extended.mantissa ≤ extended.roundedMantissa := by
      have := roundedMantissa_cases extended
      omega
    constructor
    · intro _
      exact below.le.trans (mul_two_zpow_le_mul target notDown)
    · intro atMost
      exact absurd (below.trans_le represents.mantissa_le) (not_lt.mpr atMost)
  · -- at no smaller an exponent the number is a multiple of the power that is rounded to
    obtain ⟨count, countEq⟩ := Int.le.dest notLess
    have multiple : (mantissa : Rat) * 2 ^ exponent = (mantissa * 2 ^ count : Nat) * 2 ^ target := by
      rw [← countEq, Int.add_comm, ← two_pow_mul_two_zpow]
      push_cast
      ring
    obtain ⟨notBelow, notAbove⟩ := represents.roundedMantissa_passes_no_multiple (mantissa * 2 ^ count)
    rw [multiple]
    constructor
    · intro atMost
      exact mul_two_zpow_le_mul target (notBelow atMost)
    · intro atLeast
      exact mul_two_zpow_le_mul target (notAbove atLeast)

theorem mantissa_ofMantissaAndAccuracy (mantissa : Nat) (accuracy : Accuracy) :
    (ExtendedMantissa.ofMantissaAndAccuracy mantissa accuracy).mantissa = mantissa := by
  fun_cases ExtendedMantissa.ofMantissaAndAccuracy mantissa accuracy <;> rfl

/-- Rounding a magnitude, from which nothing has been cut off past the bit it is rounded at. -/
theorem exists_roundWithAccuracy_eq {mantissa : Nat} {exponent : Int} {accuracy : Accuracy}
    {magnitude : Rat} (sign : Sign)
    (represents : Represents (ExtendedMantissa.ofMantissaAndAccuracy mantissa accuracy) exponent
      magnitude)
    (exponentLe : exponent ≤ max ((mantissa.log2 : Int) + exponent - 52) (-1074)) :
    ∃ rounded target, IsCanonical rounded target ∧
      roundWithAccuracy Format.binary64 sign mantissa exponent accuracy =
        (if notZero : rounded = 0 then .zero sign
          else .finite sign rounded target (Nat.pos_of_ne_zero notZero)) ∧
      ∀ (other : Nat) (otherExponent : Int), other < 2 ^ 53 → -1074 ≤ otherExponent →
        ((other : Rat) * 2 ^ otherExponent ≤ magnitude →
          (other : Rat) * 2 ^ otherExponent ≤ rounded * 2 ^ target) ∧
        (magnitude ≤ (other : Rat) * 2 ^ otherExponent →
          (rounded : Rat) * 2 ^ target ≤ other * 2 ^ otherExponent) := by
  have mantissaLe := represents.mantissa_le
  have ltSucc := represents.lt_succ
  rw [mantissa_ofMantissaAndAccuracy] at mantissaLe ltSucc
  generalize targetEq : max ((mantissa.log2 : Int) + exponent - 52) (-1074) = target at exponentLe
  have shifted : shiftToTargetExponent Format.binary64 mantissa exponent accuracy =
      (ExtendedMantissa.ofMantissaAndAccuracy mantissa accuracy >>> (target - exponent).toNat, target) := by
    rw [shiftToTargetExponent, targetExponent_eq, targetEq, shiftToExponent]
    simp only [Prod.mk.injEq, true_and]
    omega
  have cutOff := represents.shiftRight (target - exponent).toNat
  rw [show exponent + ((target - exponent).toNat : Int) = target by omega] at cutOff
  generalize ExtendedMantissa.ofMantissaAndAccuracy mantissa accuracy >>> (target - exponent).toNat =
    extended at shifted cutOff
  have canonical := cutOff.isCanonical mantissaLe ltSucc targetEq.symm exponentLe
  have cases := roundedMantissa_cases extended
  have lt := canonical.lt
  have full := canonical.full
  obtain ⟨rounded, final, again, finalCanonical, same⟩ := shiftToTargetExponent_of_le
    (show extended.roundedMantissa ≤ 2 ^ 53 by omega) canonical.atLeast
    (show 2 ^ 52 ≤ extended.roundedMantissa ∨ target = -1074 by omega)
  refine ⟨rounded, final, finalCanonical, ?_, ?_⟩
  · simp only [roundWithAccuracy, shifted, again]
  · intro other otherExponent small atLeast
    rw [same]
    exact cutOff.roundedMantissa_same_side canonical small atLeast

/-- A sign and a magnitude are rounded as the magnitude is. -/
theorem isRounding_roundWithAccuracy {mantissa : Nat} {exponent : Int} {accuracy : Accuracy}
    {magnitude : Rat} (sign : Sign)
    (represents : Represents (ExtendedMantissa.ofMantissaAndAccuracy mantissa accuracy) exponent
      magnitude)
    (exponentLe : exponent ≤ max ((mantissa.log2 : Int) + exponent - 52) (-1074)) :
    IsRounding ((sign.apply 1 : Int) * magnitude)
      (roundWithAccuracy Format.binary64 sign mantissa exponent accuracy) := by
  obtain ⟨rounded, target, canonical, roundedEq, sameSide⟩ :=
    exists_roundWithAccuracy_eq sign represents exponentLe
  have notNegative : 0 ≤ magnitude :=
    le_trans (mul_nonneg (Nat.cast_nonneg _) (two_zpow_pos exponent).le) represents.mantissa_le
  have roundedNotNegative : (0 : Rat) ≤ rounded * 2 ^ target :=
    mul_nonneg (Nat.cast_nonneg _) (two_zpow_pos target).le
  have isCanonical : Canonical (roundWithAccuracy Format.binary64 sign mantissa exponent accuracy) := by
    rw [roundedEq]
    split
    · exact .zero sign
    · exact .finite sign _ canonical
  have valueEq : value (roundWithAccuracy Format.binary64 sign mantissa exponent accuracy) =
      (sign.apply 1 : Int) * (rounded * 2 ^ target) := by
    rw [roundedEq]
    split
    · next isZero => simp [value, isZero]
    · rw [value, cast_apply, mul_assoc]
  refine ⟨isCanonical, ?_, ?_⟩ <;> rw [valueEq] <;>
    rintro other ⟨digits, place, small, atLeast, absEq⟩ ordered <;>
    obtain ⟨notAbove, notBelow⟩ := sameSide digits place small atLeast
  · cases sign with
    | positive =>
        simp only [Sign.apply, Int.cast_one, one_mul] at ordered ⊢
        rcases le_total 0 other with otherPositive | otherNegative
        · rw [abs_of_nonneg otherPositive] at absEq
          rw [absEq] at ordered ⊢
          exact notAbove ordered
        · exact otherNegative.trans roundedNotNegative
    | negative =>
        simp only [Sign.apply, Int.cast_neg, Int.cast_one, neg_mul, one_mul] at ordered ⊢
        rw [abs_of_nonpos (by linarith)] at absEq
        have := notBelow (by linarith)
        linarith
  · cases sign with
    | positive =>
        simp only [Sign.apply, Int.cast_one, one_mul] at ordered ⊢
        rw [abs_of_nonneg (notNegative.trans ordered)] at absEq
        rw [absEq] at ordered ⊢
        exact notBelow ordered
    | negative =>
        simp only [Sign.apply, Int.cast_neg, Int.cast_one, neg_mul, one_mul] at ordered ⊢
        rcases le_total 0 other with otherPositive | otherNegative
        · linarith
        · rw [abs_of_nonpos otherNegative] at absEq
          have := notAbove (by linarith)
          linarith

theorem represents_exact (mantissa : Nat) (exponent : Int) :
    Represents (ExtendedMantissa.ofMantissaAndAccuracy mantissa .exact) exponent
      (mantissa * 2 ^ exponent) := by
  refine ⟨le_rfl, ?_, ⟨fun _ => rfl, fun _ => rfl⟩⟩
  exact mul_lt_mul_of_pos_right (lt_add_one _) (two_zpow_pos exponent)

theorem isRounding_of_value_eq {number : Rat} {rounded : UnpackedFloat}
    (canonical : Canonical rounded) (valueEq : value rounded = number) :
    IsRounding number rounded :=
  ⟨canonical, fun _ _ ordered => valueEq ▸ ordered, fun _ _ ordered => valueEq ▸ ordered⟩

theorem mul_shiftLeft_two_zpow (mantissa count : Nat) (exponent : Int) :
    ((mantissa <<< count : Nat) : Rat) * 2 ^ (exponent - count) = mantissa * 2 ^ exponent := by
  rw [Nat.shiftLeft_eq, Nat.cast_mul, Nat.cast_pow, Nat.cast_ofNat, mul_assoc, two_pow_mul_two_zpow,
    add_sub_cancel]

theorem isRounding_round {mantissa : Nat} (positive : 0 < mantissa) (exponent : Int) (sign : Sign) :
    IsRounding ((sign.apply 1 : Int) * (mantissa * 2 ^ exponent))
      (UnpackedFloat.round Format.binary64 sign mantissa exponent) := by
  simp only [UnpackedFloat.round, targetExponent_eq, decreaseExponent]
  generalize countEq : (exponent - max ((mantissa.log2 : Int) + exponent - 52) (-1074)).toNat = count
  rw [← mul_shiftLeft_two_zpow mantissa count exponent]
  refine isRounding_roundWithAccuracy sign (represents_exact _ _) ?_
  rw [Nat.shiftLeft_eq, log2_mul_two_pow positive]
  omega

theorem isRounding_normalize (mantissa exponent : Int) (zeroSign : Sign) :
    IsRounding (mantissa * 2 ^ exponent)
      (UnpackedFloat.normalize Format.binary64 mantissa exponent zeroSign) := by
  rw [UnpackedFloat.normalize]
  rcases Int.lt_trichotomy mantissa 0 with negative | rfl | positive
  · rw [compare_lt_iff_lt.mpr negative]
    obtain ⟨digits, digitsEq⟩ := Int.eq_ofNat_of_zero_le (show 0 ≤ -mantissa by omega)
    have rounding := isRounding_round (show 0 < digits by omega) exponent .negative
    have mantissaEq : (mantissa : Rat) = -digits := by
      rw [← Int.cast_natCast, ← digitsEq, Int.cast_neg, neg_neg]
    simp only [digitsEq, Int.toNat_natCast]
    simpa [Sign.apply, mantissaEq] using rounding
  · exact isRounding_of_value_eq (.zero zeroSign) (by simp [value])
  · rw [compare_gt_iff_gt.mpr positive]
    obtain ⟨digits, rfl⟩ := Int.eq_ofNat_of_zero_le positive.le
    have rounding := isRounding_round (show 0 < digits by omega) exponent .positive
    simpa [Sign.apply] using rounding

theorem value_decreaseExponent (sign : Sign) {mantissa : Nat} {exponent target : Int}
    (targetLe : target ≤ exponent) :
    ((sign.apply (decreaseExponent mantissa exponent target).1 : Int) : Rat) * 2 ^ target =
      sign.apply mantissa * 2 ^ exponent := by
  have shifted := mul_shiftLeft_two_zpow mantissa (exponent - target).toNat exponent
  rw [show exponent - ((exponent - target).toNat : Int) = target by omega] at shifted
  rw [decreaseExponent, cast_apply, cast_apply, mul_assoc, shifted, mul_assoc]

/-- A sum of doubles is rounded once. -/
theorem isRounding_add {first second : UnpackedFloat} (canonical : Canonical first)
    (otherCanonical : Canonical second) :
    IsRounding (value first + value second) (UnpackedFloat.add Format.binary64 first second) := by
  cases canonical with
  | zero sign =>
      cases otherCanonical with
      | zero other =>
          cases sign <;> cases other <;>
            exact isRounding_of_value_eq (.zero _) (add_zero (0 : Rat)).symm
      | @finite other mantissa exponent positive otherCanonical =>
          exact isRounding_of_value_eq (.finite other positive otherCanonical)
            (by simp [UnpackedFloat.add, value])
  | @finite sign mantissa exponent positive canonical =>
      cases otherCanonical with
      | zero other =>
          exact isRounding_of_value_eq (.finite sign positive canonical)
            (by simp [UnpackedFloat.add, value])
      | @finite other otherMantissa otherExponent otherPositive otherCanonical =>
          have sumEq : value (.finite sign mantissa exponent positive) +
              value (.finite other otherMantissa otherExponent otherPositive) =
              ((sign.apply (decreaseExponent mantissa exponent (min exponent otherExponent)).1 +
                other.apply (decreaseExponent otherMantissa otherExponent
                  (min exponent otherExponent)).1 : Int) : Rat) * 2 ^ min exponent otherExponent := by
            rw [Int.cast_add, add_mul, value_decreaseExponent sign (min_le_left _ _),
              value_decreaseExponent other (min_le_right _ _)]
            rfl
          rw [sumEq]
          exact isRounding_normalize _ _ _

theorem log2_div_two_pow (number count : Nat) :
    (number / 2 ^ count).log2 = number.log2 - count := by
  rw [Nat.log2_eq_log_two, Nat.log2_eq_log_two, Nat.log_div_base_pow]

theorem accuracy_ofMantissaAndAccuracy (mantissa : Nat) (accuracy : Accuracy) :
    (ExtendedMantissa.ofMantissaAndAccuracy mantissa accuracy).accuracy = accuracy := by
  fun_cases ExtendedMantissa.ofMantissaAndAccuracy mantissa accuracy <;> rfl

theorem accuracyOfFraction_eq_exact_iff (rest whole : Nat) :
    accuracyOfFraction rest whole = .exact ↔ rest = 0 := by
  rw [accuracyOfFraction]
  split <;> simp [*]

/-- The digits of half a number, and whether there are more of them. -/
theorem represents_half (mantissa count : Nat) (exponent : Int) :
    Represents (ExtendedMantissa.ofMantissaAndAccuracy (mantissa <<< count / 2 ^ 52)
      (accuracyOfFraction (mantissa <<< count % 2 ^ 52) (2 ^ 52))) (exponent + 51 - count)
      (mantissa * 2 ^ exponent / 2) := by
  have positive := two_zpow_pos (exponent + 51 - count)
  have halfEq : (mantissa : Rat) * 2 ^ exponent / 2 =
      ((mantissa <<< count : Nat) : Rat) / 2 ^ 52 * 2 ^ (exponent + 51 - count) := by
    rw [div_mul_eq_mul_div, mul_shiftLeft_two_zpow, zpow_add₀ (by norm_num)]
    norm_num
    ring
  generalize mantissa <<< count = digits at halfEq ⊢
  have parts : (digits : Rat) = 2 ^ 52 * (digits / 2 ^ 52 : Nat) + (digits % 2 ^ 52 : Nat) := by
    exact_mod_cast (Nat.div_add_mod digits (2 ^ 52)).symm
  have restLt : ((digits % 2 ^ 52 : Nat) : Rat) < 2 ^ 52 := by
    exact_mod_cast Nat.mod_lt digits (Nat.two_pow_pos 52)
  have restNotNegative : (0 : Rat) ≤ (digits % 2 ^ 52 : Nat) := Nat.cast_nonneg _
  have restEqZero : ((digits % 2 ^ 52 : Nat) : Rat) = 0 ↔ digits % 2 ^ 52 = 0 := Nat.cast_eq_zero
  rw [halfEq]
  generalize digits % 2 ^ 52 = rest at *
  refine ⟨?_, ?_, ?_⟩ <;> rw [mantissa_ofMantissaAndAccuracy]
  · refine mul_le_mul_of_nonneg_right ?_ positive.le
    rw [le_div_iff₀ (by norm_num), parts]
    linarith
  · refine mul_lt_mul_of_pos_right ?_ positive
    rw [div_lt_iff₀ (by norm_num), parts]
    linarith
  · rw [accuracy_ofMantissaAndAccuracy, accuracyOfFraction_eq_exact_iff, ← restEqZero,
      mul_left_inj' positive.ne', div_eq_iff (by norm_num), parts]
    constructor <;> intro same <;> linarith

/-- Half a double is rounded once. -/
theorem isRounding_half {number : UnpackedFloat} (canonical : Canonical number) :
    IsRounding (value number / 2)
      (UnpackedFloat.div Format.binary64 number (.finite .positive (2 ^ 52) (-51) (by decide))) := by
  cases canonical with
  | zero sign => exact isRounding_of_value_eq (.zero _) (zero_div (2 : Rat)).symm
  | @finite sign mantissa exponent positive canonical =>
      obtain ⟨lt, atLeast, full⟩ := canonical
      have signEq : sign / .positive = sign := by cases sign <;> rfl
      have numberEq : value (.finite sign mantissa exponent positive) / 2 =
          (sign.apply 1 : Int) * (mantissa * 2 ^ exponent / 2) := by
        rw [value, cast_apply]
        ring
      have targetEq : Format.binary64.targetExponent
          (totalExponent mantissa exponent - totalExponent (2 ^ 52) (-51)) =
            max ((mantissa.log2 : Int) + exponent - 54) (-1074) := by
        simp only [Format.targetExponent, totalExponent, Format.mantissaBits, Format.minExponent,
          Nat.log2_two_pow]
        norm_num
        omega
      simp only [UnpackedFloat.div, divCore, signEq, numberEq, targetEq]
      generalize placeEq : min (exponent - -51) (max ((mantissa.log2 : Int) + exponent - 54) (-1074)) =
        place
      have represents := represents_half mantissa (exponent - -51 - place).toNat exponent
      rw [show exponent + 51 - ((exponent - -51 - place).toNat : Int) = place by omega] at represents
      refine isRounding_roundWithAccuracy sign represents ?_
      rw [log2_div_two_pow, Nat.shiftLeft_eq, log2_mul_two_pow positive]
      omega

end Double

end CacheRouting
