import CacheRouting.Routing.Stats
import Mathlib

/-!
# Shares as doubles

A share of the ring is a number of hashes divided by a power of two.  Both fit
into the 53 bits of a double, so nothing is rounded: neither in reading the two
numbers as doubles nor in dividing one by the other.
-/

namespace CacheRouting

namespace Double

open Float.Model Float.Model.UnpackedFloat

def value? (number : Float) : Option Rat :=
  match number.toModel.unpack with
  | .zero _ => some 0
  | .finite sign mantissa exponent _ => some (sign.apply mantissa * 2 ^ exponent)
  | _ => none

theorem log2_mul_two_pow {number : Nat} (positive : 0 < number) (count : Nat) :
    (number * 2 ^ count).log2 = number.log2 + count := by
  have notZero : number ≠ 0 := Nat.ne_of_gt positive
  have shiftedNotZero : number * 2 ^ count ≠ 0 := by simp [notZero]
  obtain ⟨low, high⟩ := (Nat.log2_eq_iff notZero).mp rfl
  refine (Nat.log2_eq_iff shiftedNotZero).mpr ⟨?_, ?_⟩
  · rw [Nat.pow_add]
    exact Nat.mul_le_mul_right _ low
  · rw [Nat.add_right_comm, Nat.pow_add]
    exact Nat.mul_lt_mul_of_pos_right high (Nat.two_pow_pos count)

theorem repeat_shiftRightOne (mantissa count : Nat) :
    Nat.repeat ExtendedMantissa.shiftRightOne count ⟨mantissa * 2 ^ count, false, false⟩ =
      ⟨mantissa, false, false⟩ := by
  induction count generalizing mantissa with
  | zero => simp [Nat.repeat]
  | succ count ih =>
      rw [Nat.repeat, Nat.pow_succ', ← Nat.mul_assoc, ih]
      simp [ExtendedMantissa.shiftRightOne]

/-- A mantissa with zeros behind its 53 bits is shifted back to these. -/
theorem shiftToTargetExponent_eq {mantissa : Nat} {exponent : Int} (count : Nat)
    (normal : mantissa.log2 = 52) (atLeast : -1074 ≤ exponent) :
    shiftToTargetExponent Format.binary64 (mantissa * 2 ^ count) (exponent - count) .exact =
      (⟨mantissa, false, false⟩, exponent) := by
  have positive : 0 < mantissa := by
    rcases Nat.eq_zero_or_pos mantissa with rfl | positive
    · simp at normal
    · exact positive
  have target : Format.binary64.targetExponent
      (totalExponent (mantissa * 2 ^ count) (exponent - count)) = exponent := by
    simp [Format.targetExponent, totalExponent, log2_mul_two_pow positive, normal,
      Format.mantissaBits, Format.minExponent]
    omega
  have amount : (exponent - (exponent - count)).toNat = count := by omega
  rw [shiftToTargetExponent, target, shiftToExponent, amount]
  simp only [Prod.mk.injEq]
  exact ⟨repeat_shiftRightOne mantissa count, by omega⟩

/-- Rounding changes nothing where the 53 bits suffice. -/
theorem roundWithAccuracy_eq (sign : Sign) {mantissa : Nat} {exponent : Int} (count : Nat)
    (normal : mantissa.log2 = 52) (atLeast : -1074 ≤ exponent) (positive : 0 < mantissa) :
    roundWithAccuracy Format.binary64 sign (mantissa * 2 ^ count) (exponent - count) .exact =
      .finite sign mantissa exponent positive := by
  have again : shiftToTargetExponent Format.binary64 mantissa exponent .exact =
      (⟨mantissa, false, false⟩, exponent) := by
    simpa using shiftToTargetExponent_eq 0 normal atLeast
  have rounded : ExtendedMantissa.roundedMantissa ⟨mantissa, false, false⟩ = mantissa := rfl
  rw [roundWithAccuracy, shiftToTargetExponent_eq count normal atLeast]
  simp only [rounded, again]
  rw [dif_neg (Nat.ne_of_gt positive)]

theorem ofBitVec_toBitVec (sign : Sign) : Sign.ofBitVec sign.toBitVec = sign := by
  cases sign <;> rfl

theorem unpackSign_pack (sign : Sign) (exponent : BitVec 11) (mantissa : BitVec 52) :
    unpackSign (packComponents Format.binary64 sign exponent mantissa) = sign.toBitVec := by
  apply BitVec.eq_of_getLsbD_eq
  intro index inside
  obtain rfl : index = 0 := by omega
  rw [unpackSign, BitVec.getLsbD_cast, BitVec.getLsbD_extractLsb, packComponents,
    BitVec.getLsbD_append, BitVec.getLsbD_append]
  rfl

/-- The leading bit that is left out in packing is put in front again. -/
theorem toNat_one_append {mantissa : Nat} (normal : mantissa.log2 = 52) :
    (1#1 ++ BitVec.ofNat 52 mantissa).toNat = mantissa := by
  have notZero : mantissa ≠ 0 := by
    rintro rfl
    simp at normal
  obtain ⟨low, high⟩ := (Nat.log2_eq_iff notZero).mp normal
  rw [BitVec.toNat_append, BitVec.toNat_ofNat, BitVec.toNat_ofNat, Nat.shiftLeft_eq, Nat.mul_comm,
    ← Nat.two_pow_add_eq_or_of_lt (Nat.mod_lt _ (Nat.two_pow_pos 52))]
  omega

/-- A normal number is unpacked as it was packed. -/
theorem unpack_pack_eq {mantissa : Nat} {exponent : Int} (sign : Sign)
    (normal : mantissa.log2 = 52) (atLeast : -1074 ≤ exponent) (atMost : exponent ≤ 971)
    (positive : 0 < mantissa) :
    (Float.Model.pack (.finite sign mantissa exponent positive)).unpack =
      .finite sign mantissa exponent positive := by
  change UnpackedFloat.unpack Format.binary64 (UnpackedFloat.pack Format.binary64 _) = _
  obtain ⟨biased, biasedEq⟩ : ∃ biased : Nat, (biased : Int) = exponent + 1075 :=
    ⟨(exponent + 1075).toNat, by omega⟩
  have packed : UnpackedFloat.pack Format.binary64 (.finite sign mantissa exponent positive) =
      packComponents Format.binary64 sign (BitVec.ofNat 11 biased) (BitVec.ofNat 52 mantissa) := by
    have biasedIs : (exponent + (Format.binary64.exponentBias : Int) +
        (Format.binary64.mantissaBitsWithoutImplicit : Int)).toNat = biased := by
      simp [Format.exponentBias]
      omega
    have noOverflow : ¬ 2 ^ Format.binary64.exponentBits ≤ biased + 1 := by
      simp
      omega
    have fits : mantissa.log2 + 1 = Format.binary64.mantissaBits := by
      rw [normal]
      rfl
    simp only [UnpackedFloat.pack, biasedIs]
    rw [if_neg noOverflow, if_pos fits]
  have notTop : BitVec.ofNat 11 biased ≠ -1#11 := by
    intro top
    have values := congrArg BitVec.toNat top
    simp at values
    omega
  have notBottom : BitVec.ofNat 11 biased ≠ 0#11 := by
    intro bottom
    have values := congrArg BitVec.toNat bottom
    simp at values
    omega
  have exponentIs : ((BitVec.ofNat 11 biased).toNat : Int) -
      (Format.binary64.exponentBias + Format.binary64.mantissaBitsWithoutImplicit) = exponent := by
    simp [Format.exponentBias]
    omega
  rw [packed]
  simp only [UnpackedFloat.unpack, unpackExponent_packComponents, unpackMantissa_packComponents,
    unpackSign_pack, ofBitVec_toBitVec]
  rw [if_neg notTop, if_neg notBottom]
  simp only [toNat_one_append normal, exponentIs]

def aligned (number : Nat) : Nat := number * 2 ^ (52 - number.log2)

theorem aligned_pos {number : Nat} (positive : 0 < number) : 0 < aligned number :=
  Nat.mul_pos positive (Nat.two_pow_pos _)

theorem log2_le_of_lt {number : Nat} (small : number < 2 ^ 53) : number.log2 ≤ 52 := by
  rcases Nat.eq_zero_or_pos number with rfl | positive
  · simp
  · have := (Nat.log2_lt (Nat.ne_of_gt positive)).mpr small
    omega

theorem log2_aligned {number : Nat} (positive : 0 < number) (small : number < 2 ^ 53) :
    (aligned number).log2 = 52 := by
  have := log2_le_of_lt small
  rw [aligned, log2_mul_two_pow positive]
  omega

theorem unpack_ofUInt64 {number : Nat} (positive : 0 < number) (small : number < 2 ^ 53) :
    (UInt64.ofNat number).toFloat.toModel.unpack =
      .finite .positive (aligned number) (number.log2 - 52) (aligned_pos positive) := by
  have log2Le := log2_le_of_lt small
  have read : (UInt64.ofNat number).toNat = number := by
    rw [UInt64.toNat_ofNat']
    omega
  have target : Format.binary64.targetExponent (totalExponent number 0) = number.log2 - 52 := by
    simp [Format.targetExponent, totalExponent, Format.mantissaBits, Format.minExponent]
    omega
  have amount : (0 - ((number.log2 : Int) - 52)).toNat = 52 - number.log2 := by omega
  have exponent : (0 : Int) - (52 - number.log2 : Nat) = number.log2 - 52 := by omega
  have rounded : UnpackedFloat.ofUInt64 Format.binary64 (UInt64.ofNat number) =
      .finite .positive (aligned number) (number.log2 - 52) (aligned_pos positive) := by
    have normal := roundWithAccuracy_eq .positive 0 (log2_aligned positive small)
      (show -1074 ≤ (number.log2 : Int) - 52 by omega) (aligned_pos positive)
    have above : compare (number : Int) 0 = .gt := Int.compare_eq_gt.mpr (by omega)
    rw [UnpackedFloat.ofUInt64, read, UnpackedFloat.ofNat, UnpackedFloat.ofInt,
      UnpackedFloat.normalize, above]
    simp only [UnpackedFloat.round, Int.toNat_natCast, target, decreaseExponent, amount, exponent,
      Nat.shiftLeft_eq]
    simpa [aligned] using normal
  change (Float.Model.pack _).unpack = _
  rw [rounded]
  exact unpack_pack_eq _ (log2_aligned positive small) (by omega) (by omega) _

theorem unpack_one :
    (Float.ofBits 4607182418800017408).toModel.unpack = .finite .positive (2 ^ 52) (-52) (by decide) :=
  rfl

theorem unpack_ofNat {number : Nat} (positive : 0 < number) (small : number < 2 ^ 53) :
    (Float.ofNat number).toModel.unpack =
      .finite .positive (aligned number) (number.log2 - 52) (aligned_pos positive) := by
  have log2Le := log2_le_of_lt small
  have product : Float.ofNat number =
      (UInt64.ofNat number).toFloat * Float.ofBits 4607182418800017408 := by
    change Float.ofScientific number false 0 = _
    rw [Float.ofScientific, dif_pos ⟨small, by decide⟩]
    rfl
  have rounded := roundWithAccuracy_eq .positive 52 (log2_aligned positive small)
    (show -1074 ≤ (number.log2 : Int) - 52 by omega) (aligned_pos positive)
  rw [product]
  change (Float.Model.pack (UnpackedFloat.mul Format.binary64 _ _)).unpack = _
  rw [unpack_ofUInt64 positive small, unpack_one]
  change (Float.Model.pack (roundWithAccuracy Format.binary64 .positive (aligned number * 2 ^ 52)
    ((number.log2 : Int) - 52 - (52 : Nat)) .exact)).unpack = _
  rw [rounded]
  exact unpack_pack_eq _ (log2_aligned positive small) (by omega) (by omega) _

theorem divCore_two_pow {mantissa : Nat} (normal : mantissa.log2 = 52) (exponent divisor : Int)
    (inRange : -1000 ≤ exponent - divisor) :
    divCore Format.binary64 mantissa exponent (2 ^ 52) divisor =
      (mantissa * 2 ^ 1, exponent - divisor - 52 - (1 : Nat), .exact) := by
  have target : Format.binary64.targetExponent
      (totalExponent mantissa exponent - totalExponent (2 ^ 52) divisor) =
        exponent - divisor - 53 := by
    simp only [Format.targetExponent, totalExponent, normal, Nat.log2_two_pow,
      Format.mantissaBits, Format.minExponent]
    omega
  have amount : (exponent - divisor - min (exponent - divisor) (exponent - divisor - 53)).toNat =
      1 + 52 := by omega
  have shifted : mantissa <<< (1 + 52) = mantissa * 2 ^ 1 * 2 ^ 52 := by
    rw [Nat.shiftLeft_eq, Nat.pow_add, Nat.mul_assoc]
  simp only [divCore, target, amount, shifted, Nat.mul_div_cancel _ (Nat.two_pow_pos 52),
    Nat.mul_mod_left, accuracyOfFraction, if_true, Prod.mk.injEq, true_and, and_true]
  omega

theorem aligned_two_pow (count : Nat) (small : count ≤ 52) : aligned (2 ^ count) = 2 ^ 52 := by
  rw [aligned, Nat.log2_two_pow, ← Nat.pow_add]
  congr 1
  omega

theorem value?_div_two_pow {number count : Nat} (positive : 0 < number) (small : number < 2 ^ 53)
    (few : count ≤ 52) :
    value? (Float.ofNat number / Float.ofNat (2 ^ count)) = some ((number : Rat) / 2 ^ count) := by
  have log2Le := log2_le_of_lt small
  have powerSmall : 2 ^ count < 2 ^ 53 := Nat.pow_lt_pow_right (by decide) (by omega)
  have unpacked : (Float.ofNat number / Float.ofNat (2 ^ count)).toModel.unpack =
      .finite .positive (aligned number) ((number.log2 : Int) - 52 - (count - 52) - 52)
        (aligned_pos positive) := by
    change (Float.Model.pack (UnpackedFloat.div Format.binary64 _ _)).unpack = _
    rw [unpack_ofNat positive small, unpack_ofNat (Nat.two_pow_pos count) powerSmall]
    simp only [UnpackedFloat.div, aligned_two_pow count few, Nat.log2_two_pow]
    rw [divCore_two_pow (log2_aligned positive small) _ _ (by omega)]
    change (Float.Model.pack (roundWithAccuracy _ .positive _ _ _)).unpack = _
    rw [roundWithAccuracy_eq .positive 1 (log2_aligned positive small) (by omega)
      (aligned_pos positive)]
    exact unpack_pack_eq _ (log2_aligned positive small) (by omega) (by omega) _
  have exponentEq : (number.log2 : Int) - 52 - (count - 52) - 52 =
      -((52 - number.log2 : Nat) : Int) - (count : Int) := by omega
  have two : (2 : Rat) ≠ 0 := by decide
  rw [value?, unpacked]
  simp only [Sign.apply, aligned, exponentEq, zpow_sub₀ two, zpow_neg, zpow_natCast]
  push_cast
  field_simp

/-- A share whose denominator is a power of two is reported exactly. -/
theorem value?_shareToFloat {share : Rat} {count : Nat} (notNegative : 0 ≤ share.num)
    (small : share.num < 2 ^ 53) (denominator : share.den = 2 ^ count) (few : count ≤ 52) :
    value? (Stats.shareToFloat share) = some share := by
  obtain ⟨numerator, numeratorEq⟩ := Int.eq_ofNat_of_zero_le notNegative
  have shareEq : share = (numerator : Rat) / 2 ^ count := by
    rw [← Rat.num_div_den share, numeratorEq, denominator]
    push_cast
    rfl
  have quotient : Stats.shareToFloat share = Float.ofNat numerator / Float.ofNat (2 ^ count) := by
    rw [Stats.shareToFloat, numeratorEq, denominator]
    rfl
  rcases Nat.eq_zero_or_pos numerator with rfl | positive
  · have isZero : share = 0 := by simpa using shareEq
    rw [isZero]
    rfl
  · rw [quotient, value?_div_two_pow positive (by omega) few, shareEq]

theorem value?_shareToFloat_mkRat {part : Nat} (atMost : part ≤ 2 ^ 32) :
    value? (Stats.shareToFloat (mkRat part (2 ^ 32))) = some (mkRat part (2 ^ 32)) := by
  have divides : (mkRat part (2 ^ 32)).den ∣ 2 ^ 32 := by
    have dividesInt := Rat.den_dvd part (2 ^ 32 : Nat)
    rw [← Rat.mkRat_eq_divInt] at dividesInt
    exact Int.natCast_dvd_natCast.mp dividesInt
  obtain ⟨count, few, denominator⟩ := (Nat.dvd_prime_pow Nat.prime_two).mp divides
  have notNegative : 0 ≤ (mkRat part (2 ^ 32)).num := by
    rw [Rat.num_nonneg, Rat.mkRat_nonneg_iff _ (by decide)]
    exact Int.natCast_nonneg part
  have atMostOne : (mkRat part (2 ^ 32)).num ≤ (mkRat part (2 ^ 32)).den := by
    rw [Rat.num_le_denom_iff, Rat.mkRat_eq_div, div_le_one (by positivity)]
    exact_mod_cast atMost
  have denominatorLe := Nat.le_of_dvd (Nat.two_pow_pos 32) divides
  exact value?_shareToFloat notNegative (by omega) denominator (by omega)

end Double

end CacheRouting
