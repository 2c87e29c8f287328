import CacheRouting.Proofs.Ranking.Rounding

/-!
# Square roots of finite doubles

The exponent of a finite double is below that of the infinite ones, and that of
its root is about half of it.  So the root of a finite double that is not
negative is finite, however it is rounded.
-/

namespace CacheRouting

namespace Double

open Float.Model Float.Model.UnpackedFloat

theorem isFinite_unpack_packComponents (sign : Sign) {exponent : BitVec 11} (mantissa : BitVec 52)
    (notTop : exponent ≠ -1#11) :
    (UnpackedFloat.unpack Format.binary64
      (packComponents Format.binary64 sign exponent mantissa)).isFinite = true := by
  simp only [UnpackedFloat.unpack, unpackExponent_packComponents, unpackMantissa_packComponents]
  rw [if_neg notTop]
  split
  · split <;> rfl
  · rfl

/-- A number whose exponent is not too large stays finite when it is packed. -/
theorem isFinite_unpack_pack {sign : Sign} {mantissa : Nat} {exponent : Int}
    (positive : 0 < mantissa) (small : exponent ≤ 971) :
    (Float.Model.pack (.finite sign mantissa exponent positive)).unpack.isFinite = true := by
  change (UnpackedFloat.unpack Format.binary64
    (UnpackedFloat.pack Format.binary64 (.finite sign mantissa exponent positive))).isFinite = true
  simp only [UnpackedFloat.pack]
  have noOverflow : ¬ 2 ^ Format.binary64.exponentBits ≤
      (exponent + (Format.binary64.exponentBias : Int) +
        (Format.binary64.mantissaBitsWithoutImplicit : Int)).toNat + 1 := by
    simp [Format.exponentBias]
    omega
  rw [if_neg noOverflow]
  split
  · apply isFinite_unpack_packComponents
    intro top
    have values := congrArg BitVec.toNat top
    simp [Format.exponentBias] at values
    omega
  · exact isFinite_unpack_packComponents sign _ (by decide)

theorem mantissa_repeat_le (count : Nat) (extended : ExtendedMantissa) :
    (Nat.repeat ExtendedMantissa.shiftRightOne count extended).mantissa ≤ extended.mantissa := by
  induction count with
  | zero => exact Nat.le_refl _
  | succ count ih =>
      rw [Nat.repeat]
      exact Nat.le_trans (Nat.div_le_self _ 2) ih

theorem shiftToTargetExponent_le {mantissa bits : Nat} {exponent bound : Int} (accuracy : Accuracy)
    (fits : mantissa < 2 ^ (bits + 1)) (atMost : exponent ≤ bound) (notTiny : -1074 ≤ bound)  :
    (shiftToTargetExponent Format.binary64 mantissa exponent accuracy).1.mantissa ≤ mantissa ∧
      (shiftToTargetExponent Format.binary64 mantissa exponent accuracy).2 ≤ bound + bits := by
  constructor
  · exact Nat.le_trans (mantissa_repeat_le _ _)
      (Nat.le_of_eq (mantissa_ofMantissaAndAccuracy mantissa accuracy))
  · have log2Le : mantissa.log2 ≤ bits := by
      by_cases isZero : mantissa = 0
      · simp [isZero]
      · have := (Nat.log2_lt isZero).mpr fits
        omega
    simp [shiftToTargetExponent, shiftToExponent, Format.targetExponent, totalExponent,
      Format.mantissaBits, Format.minExponent]
    omega

theorem isFinite_roundWithAccuracy (sign : Sign) {mantissa bits : Nat} {exponent bound : Int}
    (accuracy : Accuracy) (fits : mantissa < 2 ^ bits) (atMost : exponent ≤ bound)
    (notTiny : -1074 ≤ bound) (small : bound + 2 * bits ≤ 971) :
    (Float.Model.pack (roundWithAccuracy Format.binary64 sign mantissa exponent accuracy)).unpack.isFinite =
      true := by
  have fitsFirst : mantissa < 2 ^ (bits + 1) := Nat.lt_trans fits (Nat.pow_lt_pow_succ (by decide))
  obtain ⟨mantissaLe, exponentLe⟩ := shiftToTargetExponent_le accuracy fitsFirst atMost notTiny
  have rounded := roundedMantissa_cases
    (shiftToTargetExponent Format.binary64 mantissa exponent accuracy).1
  rw [roundWithAccuracy]
  generalize shiftToTargetExponent Format.binary64 mantissa exponent accuracy = shifted at *
  obtain ⟨extended, first⟩ := shifted
  have fitsAgain : extended.roundedMantissa < 2 ^ (bits + 1) := by
    rw [Nat.pow_succ]
    dsimp only at mantissaLe rounded
    omega
  obtain ⟨-, secondLe⟩ := shiftToTargetExponent_le .exact fitsAgain exponentLe (by omega)
  dsimp only at secondLe ⊢
  split
  · exact isFinite_unpack_packComponents _ _ (by decide)
  · exact isFinite_unpack_pack _ (by omega)

theorem sqrtCore_bounds {mantissa : Nat} {exponent : Int} (mantissaLt : mantissa < 2 ^ 53)
    (exponentLe : exponent ≤ 972) :
    (sqrtCore Format.binary64 mantissa exponent).1 < 2 ^ 79 ∧
      (sqrtCore Format.binary64 mantissa exponent).2.1 ≤ 486 := by
  have targetIs : (sqrtCore Format.binary64 mantissa exponent).2.1 =
      min (exponent / 2) (max ((mantissa.log2 + 1 + exponent + 1) / 2 - 53) (-1074)) := rfl
  have rootIs : (sqrtCore Format.binary64 mantissa exponent).1 = (mantissa <<<
      (exponent - 2 * (sqrtCore Format.binary64 mantissa exponent).2.1).toNat).sqrt := rfl
  rw [rootIs, targetIs]
  refine ⟨?_, by omega⟩
  have shiftLe : (exponent - 2 * min (exponent / 2)
      (max ((mantissa.log2 + 1 + exponent + 1) / 2 - 53) (-1074))).toNat ≤ 105 := by omega
  generalize (exponent - 2 * min (exponent / 2)
      (max ((mantissa.log2 + 1 + exponent + 1) / 2 - 53) (-1074))).toNat = shift at shiftLe
  rw [Nat.sqrt_lt, Nat.shiftLeft_eq]
  calc
    mantissa * 2 ^ shift < 2 ^ 53 * 2 ^ shift :=
      Nat.mul_lt_mul_of_pos_right mantissaLt (Nat.two_pow_pos shift)
    _ ≤ 2 ^ 53 * 2 ^ 105 := Nat.mul_le_mul_left _ (Nat.pow_le_pow_right (by decide) shiftLe)
    _ = 2 ^ 79 * 2 ^ 79 := by norm_num

theorem isFinite_sqrt {number : Float} (finite : number.isFinite = true) (notNegative : 0 ≤ number) :
    number.sqrt.isFinite = true := by
  change (Float.Model.pack (UnpackedFloat.sqrt Format.binary64 number.toModel.unpack)).unpack.isFinite =
    true
  have isFinite : number.toModel.unpack.isFinite = true := finite
  have placed := ((le_iff 0 number).mp notNegative).2
  have zeroIs : (0 : Float).toModel.unpack = .zero .positive := rfl
  rw [zeroIs] at placed
  cases unpacked : number.toModel.unpack with
  | notANumber => simp [unpacked, UnpackedFloat.isFinite] at isFinite
  | infinity sign => simp [unpacked, UnpackedFloat.isFinite] at isFinite
  | zero sign => exact isFinite_unpack_packComponents _ _ (by decide)
  | finite sign mantissa exponent positive =>
      cases sign with
      | negative =>
          rw [unpacked] at placed
          simp [place, Prod.Lex.toLex_le_toLex] at placed
      | positive =>
          obtain ⟨canonical, atMost⟩ := isCanonical_of_unpack unpacked
          have exponentLe : exponent ≤ 972 := by omega
          obtain ⟨rootLt, targetLe⟩ := sqrtCore_bounds canonical.lt exponentLe
          exact isFinite_roundWithAccuracy .positive _ rootLt targetLe (by decide) (by decide)

end Double

end CacheRouting
