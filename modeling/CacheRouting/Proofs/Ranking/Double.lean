import CacheRouting.Proofs.Ranking.Weight
import Mathlib

/-!
# Doubles as weights

Doubles are numbers in the sense of ranking exactly when they are not NaN.  Their
comparison is that of places in a linear order, in which both zeros share one
place; it sees sign and kind first, then the exponent, then the mantissa.  A sum
with a finite double and a half are NaN only if the double they start from is.
-/

namespace CacheRouting

namespace Double

open Float.Model Float.Model.UnpackedFloat

theorem compare_natCast (first second : Nat) :
    compare (first : Int) (second : Int) = compare first second := by
  rcases Nat.lt_trichotomy first second with less | equal | greater
  · rw [compare_lt_iff_lt.mpr less, compare_lt_iff_lt.mpr (Int.ofNat_lt.mpr less)]
  · subst equal
    simp
  · rw [compare_gt_iff_gt.mpr greater, compare_gt_iff_gt.mpr (Int.ofNat_lt.mpr greater)]

theorem compare_neg_neg (first second : Int) :
    compare (-first) (-second) = (compare first second).swap := by
  rcases Int.lt_trichotomy first second with less | equal | greater
  · rw [compare_lt_iff_lt.mpr less, compare_gt_iff_gt.mpr (Int.neg_lt_neg less)]
    rfl
  · subst equal
    simp
  · rw [compare_gt_iff_gt.mpr greater, compare_lt_iff_lt.mpr (Int.neg_lt_neg greater)]
    rfl

/-- The place of a double in the order of doubles.  Below zero exponent and mantissa
count backwards. -/
def place : UnpackedFloat → Int ×ₗ Int ×ₗ Int
  | .notANumber => toLex (0, toLex (0, 0))
  | .infinity .negative => toLex (-2, toLex (0, 0))
  | .finite .negative mantissa exponent _ => toLex (-1, toLex (-exponent, -mantissa))
  | .zero _ => toLex (0, toLex (0, 0))
  | .finite .positive mantissa exponent _ => toLex (1, toLex (exponent, mantissa))
  | .infinity .positive => toLex (2, toLex (0, 0))

theorem compare_toLex_of_same_kind (kind first second third fourth : Int) :
    compare (toLex (kind, toLex (first, second))) (toLex (kind, toLex (third, fourth))) =
      (compare first third).then (compare second fourth) := by
  simp only [Prod.Lex.compare_def, compareLex, compareOn, ofLex_toLex,
    Std.ReflCmp.compare_self, Ordering.eq_then]

theorem compare_eq_compare_place {first second : UnpackedFloat}
    (firstDefined : first.isNaN = false) (secondDefined : second.isNaN = false) :
    first.compare second = some (compare (place first) (place second)) := by
  cases first with
  | notANumber => simp [UnpackedFloat.isNaN] at firstDefined
  | infinity sign =>
      cases second with
      | notANumber => simp [UnpackedFloat.isNaN] at secondDefined
      | infinity other => cases sign <;> cases other <;> rfl
      | zero other => cases sign <;> rfl
      | finite other mantissa exponent positive => cases sign <;> cases other <;> rfl
  | zero sign =>
      cases second with
      | notANumber => simp [UnpackedFloat.isNaN] at secondDefined
      | infinity other => cases other <;> rfl
      | zero other => rfl
      | finite other mantissa exponent positive => cases other <;> rfl
  | finite sign mantissa exponent positive =>
      cases second with
      | notANumber => simp [UnpackedFloat.isNaN] at secondDefined
      | infinity other => cases sign <;> cases other <;> rfl
      | zero other => cases sign <;> rfl
      | finite other otherMantissa otherExponent otherPositive =>
          cases sign <;> cases other
          · simp [UnpackedFloat.compare, place, compare_toLex_of_same_kind, compare_neg_neg,
              compare_natCast, Ordering.swap_then]
          · rfl
          · rfl
          · simp [UnpackedFloat.compare, place, compare_toLex_of_same_kind, compare_natCast]

theorem compare_eq_none_of_isNaN {first second : UnpackedFloat}
    (undefined : first.isNaN = true ∨ second.isNaN = true) :
    first.compare second = none := by
  rcases undefined with undefined | undefined
  · cases first <;> simp [UnpackedFloat.isNaN] at undefined
    rfl
  · cases second <;> simp [UnpackedFloat.isNaN] at undefined
    cases first <;> rfl

theorem isNaN_eq_false_of_compare {first second : UnpackedFloat} {order : Ordering}
    (compared : first.compare second = some order) :
    first.isNaN = false ∧ second.isNaN = false := by
  constructor
  · by_contra undefined
    rw [compare_eq_none_of_isNaN (Or.inl (by simpa using undefined))] at compared
    simp at compared
  · by_contra undefined
    rw [compare_eq_none_of_isNaN (Or.inr (by simpa using undefined))] at compared
    simp at compared

theorem unpacked_le_iff (first second : UnpackedFloat) :
    first.le second = true ↔
      (first.isNaN = false ∧ second.isNaN = false) ∧ place first ≤ place second := by
  constructor
  · intro isLE
    obtain ⟨order, compared, orderIsLE⟩ := (Option.any_eq_true _ _).mp isLE
    have defined := isNaN_eq_false_of_compare compared
    refine ⟨defined, ?_⟩
    rw [compare_eq_compare_place defined.1 defined.2, Option.some.injEq] at compared
    rw [← compared, ← Ordering.ne_gt_iff_isLE] at orderIsLE
    exact compare_le_iff_le.mp orderIsLE
  · rintro ⟨defined, placed⟩
    rw [UnpackedFloat.le, compare_eq_compare_place defined.1 defined.2, Option.any_some,
      ← Ordering.ne_gt_iff_isLE]
    exact compare_le_iff_le.mpr placed

theorem unpacked_lt_iff (first second : UnpackedFloat) :
    first.lt second = true ↔
      (first.isNaN = false ∧ second.isNaN = false) ∧ place first < place second := by
  constructor
  · intro isLT
    have compared : first.compare second = some .lt := by simpa [UnpackedFloat.lt] using isLT
    have defined := isNaN_eq_false_of_compare compared
    refine ⟨defined, ?_⟩
    rw [compare_eq_compare_place defined.1 defined.2, Option.some.injEq] at compared
    exact compare_lt_iff_lt.mp compared
  · rintro ⟨defined, placed⟩
    rw [UnpackedFloat.lt, compare_eq_compare_place defined.1 defined.2,
      compare_lt_iff_lt.mpr placed]
    rfl

theorem isNaN_unpack_packComponents (sign : Sign) (exponent : BitVec 11) (mantissa : BitVec 52)
    (defined : exponent ≠ -1#11 ∨ mantissa = 0#52) :
    (UnpackedFloat.unpack Format.binary64 (packComponents Format.binary64 sign exponent mantissa)).isNaN =
      false := by
  simp only [UnpackedFloat.unpack, unpackExponent_packComponents, unpackMantissa_packComponents]
  by_cases top : exponent = -1#11
  · have noMantissa : mantissa = 0#52 := defined.resolve_left (not_not_intro top)
    rw [if_pos top, if_pos noMantissa]
    rfl
  · clear defined
    rw [if_neg top]
    split
    · split <;> rfl
    · rfl

theorem isNaN_unpack_pack {number : UnpackedFloat} (defined : number.isNaN = false) :
    (Float.Model.pack number).unpack.isNaN = false := by
  change (UnpackedFloat.unpack Format.binary64 (UnpackedFloat.pack Format.binary64 number)).isNaN = false
  fun_cases UnpackedFloat.pack Format.binary64 number with
  | case1 => simp [UnpackedFloat.isNaN] at defined
  | case2 sign => exact isNaN_unpack_packComponents _ _ _ (Or.inr rfl)
  | case3 sign => exact isNaN_unpack_packComponents _ _ _ (Or.inr rfl)
  | case4 sign mantissa exponent positive biased overflow =>
      exact isNaN_unpack_packComponents _ _ _ (Or.inr rfl)
  | case5 sign mantissa exponent positive bits biased noOverflow normal =>
      refine isNaN_unpack_packComponents _ _ _ (Or.inl ?_)
      intro top
      have values := congrArg BitVec.toNat top
      simp at values noOverflow
      omega
  | case6 sign mantissa exponent positive bits biased noOverflow subnormal =>
      exact isNaN_unpack_packComponents _ _ _ (Or.inl (by decide))

theorem isNaN_roundWithAccuracy (format : Format) (sign : Sign) (mantissa : Nat)
    (exponent : Int) (accuracy : Accuracy) :
    (roundWithAccuracy format sign mantissa exponent accuracy).isNaN = false := by
  unfold roundWithAccuracy
  simp only
  split <;> rfl

theorem isNaN_normalize (format : Format) (mantissa exponent : Int) (zeroSign : Sign) :
    (UnpackedFloat.normalize format mantissa exponent zeroSign).isNaN = false := by
  unfold UnpackedFloat.normalize
  split
  · exact isNaN_roundWithAccuracy ..
  · rfl
  · exact isNaN_roundWithAccuracy ..

theorem isNaN_add {weight amount : UnpackedFloat} (defined : weight.isNaN = false)
    (finite : amount.isFinite = true) :
    (UnpackedFloat.add Format.binary64 weight amount).isNaN = false := by
  cases weight with
  | notANumber => simp [UnpackedFloat.isNaN] at defined
  | infinity sign => cases amount <;> simp [UnpackedFloat.isFinite] at finite <;> rfl
  | zero sign =>
      cases amount with
      | notANumber => simp [UnpackedFloat.isFinite] at finite
      | infinity other => simp [UnpackedFloat.isFinite] at finite
      | zero other => cases sign <;> cases other <;> rfl
      | finite other mantissa exponent positive => rfl
  | finite sign mantissa exponent positive =>
      cases amount with
      | notANumber => simp [UnpackedFloat.isFinite] at finite
      | infinity other => simp [UnpackedFloat.isFinite] at finite
      | zero other => rfl
      | finite other otherMantissa otherExponent otherPositive => exact isNaN_normalize ..

theorem isNaN_div_finite {weight : UnpackedFloat} (defined : weight.isNaN = false) (sign : Sign)
    (mantissa : Nat) (exponent : Int) (positive : 0 < mantissa) :
    (UnpackedFloat.div Format.binary64 weight (.finite sign mantissa exponent positive)).isNaN =
      false := by
  cases weight with
  | notANumber => simp [UnpackedFloat.isNaN] at defined
  | infinity other => rfl
  | zero other => rfl
  | finite other otherMantissa otherExponent otherPositive => exact isNaN_roundWithAccuracy ..

theorem unpack_two :
    (2 : Float).toModel.unpack = .finite .positive (2 ^ 52) (-51) (by decide) :=
  rfl

theorem le_iff (first second : Float) :
    first ≤ second ↔ (first.isNaN = false ∧ second.isNaN = false) ∧
      place first.toModel.unpack ≤ place second.toModel.unpack := by
  change decide (first.toModel.unpack.le second.toModel.unpack = true) = true ↔ _
  rw [decide_eq_true_iff, unpacked_le_iff]
  rfl

theorem lt_iff (first second : Float) :
    first < second ↔ (first.isNaN = false ∧ second.isNaN = false) ∧
      place first.toModel.unpack < place second.toModel.unpack := by
  change decide (first.toModel.unpack.lt second.toModel.unpack = true) = true ↔ _
  rw [decide_eq_true_iff, unpacked_lt_iff]
  rfl

theorem le_of_beq {first second : Float} (equal : (first == second) = true) :
    first ≤ second ∧ second ≤ first := by
  have compared : first.toModel.unpack.compare second.toModel.unpack = some .eq := by
    simpa [UnpackedFloat.beq] using
      show first.toModel.unpack.beq second.toModel.unpack = true from equal
  have defined := isNaN_eq_false_of_compare compared
  rw [compare_eq_compare_place defined.1 defined.2, Option.some.injEq] at compared
  have same := compare_eq_iff_eq.mp compared
  exact ⟨(le_iff first second).mpr ⟨defined, same.le⟩,
    (le_iff second first).mpr ⟨defined.symm, same.ge⟩⟩

theorem beq_of_le {first second : Float} (atMost : first ≤ second) (atLeast : second ≤ first) :
    (first == second) = true := by
  obtain ⟨defined, placed⟩ := (le_iff first second).mp atMost
  have same := le_antisymm placed ((le_iff second first).mp atLeast).2
  have compared : first.toModel.unpack.compare second.toModel.unpack = some .eq := by
    rw [compare_eq_compare_place defined.1 defined.2, compare_eq_iff_eq.mpr same]
  show first.toModel.unpack.beq second.toModel.unpack = true
  simp [UnpackedFloat.beq, compared]

/-- The numbers among the doubles are those that are not NaN. -/
theorem isNumber_iff (weight : Float) : Weight.IsNumber weight ↔ weight.isNaN = false := by
  simp only [Weight.IsNumber, Weight.atLeast, decide_eq_true_eq, le_iff]
  exact ⟨fun placed => placed.1.1, fun defined => ⟨⟨defined, defined⟩, le_refl _⟩⟩

end Double

open Double in
instance : LawfulWeight Float where
  zero_isNumber := (isNumber_iff 0).mpr rfl
  atLeast_or := by
    intro first second firstNumber secondNumber
    have defined := (isNumber_iff first).mp firstNumber
    have otherDefined := (isNumber_iff second).mp secondNumber
    simp only [Weight.atLeast, decide_eq_true_eq, le_iff, defined, otherDefined, true_and]
    exact le_total (place second.toModel.unpack) (place first.toModel.unpack)
  atLeast_trans := by
    intro first second third firstAtLeast secondAtLeast
    simp only [Weight.atLeast, decide_eq_true_eq, le_iff] at firstAtLeast secondAtLeast ⊢
    exact ⟨⟨secondAtLeast.1.1, firstAtLeast.1.2⟩, secondAtLeast.2.trans firstAtLeast.2⟩
  below_eq_not_atLeast := by
    intro first second firstNumber secondNumber
    have defined := (isNumber_iff first).mp firstNumber
    have otherDefined := (isNumber_iff second).mp secondNumber
    simp only [Weight.atLeast, Weight.below, ← decide_not, le_iff, lt_iff,
      defined, otherDefined, true_and, not_le]
  add_isNumber := by
    intro weight amount number finite
    rw [isNumber_iff] at number ⊢
    exact isNaN_unpack_pack (isNaN_add number finite)
  half_isNumber := by
    intro weight number
    rw [isNumber_iff] at number ⊢
    apply isNaN_unpack_pack
    rw [unpack_two]
    exact isNaN_div_finite number ..

end CacheRouting
