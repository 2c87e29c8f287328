import CacheRouting.Proofs.Ranking.Double
import CacheRouting.Proofs.Routing.Share

/-!
# Canonical forms of doubles

A finite double that is not zero has one mantissa and one exponent: 53 bits, or
fewer at the least exponent.  In this form doubles are ordered as the numbers they
stand for, and what is packed is unpacked again, unless its exponent is so large
that it becomes infinite.
-/

namespace CacheRouting

namespace Double

open Float.Model Float.Model.UnpackedFloat

/-- A mantissa of 53 bits, or of fewer at the least exponent. -/
structure IsCanonical (mantissa : Nat) (exponent : Int) : Prop where
  lt : mantissa < 2 ^ 53
  atLeast : -1074 ≤ exponent
  full : 2 ^ 52 ≤ mantissa ∨ exponent = -1074

/-- The number an unpacked double stands for, if it is finite. -/
def value : UnpackedFloat → Rat
  | .finite sign mantissa exponent _ => sign.apply mantissa * 2 ^ exponent
  | _ => 0

/-- The finite doubles in canonical form.  The exponent may be too large for them to be packed. -/
inductive Canonical : UnpackedFloat → Prop
  | zero (sign : Sign) : Canonical (.zero sign)
  | finite (sign : Sign) {mantissa : Nat} {exponent : Int} (positive : 0 < mantissa)
      (canonical : IsCanonical mantissa exponent) :
      Canonical (.finite sign mantissa exponent positive)

theorem two_zpow_pos (exponent : Int) : (0 : Rat) < 2 ^ exponent :=
  zpow_pos (by norm_num) exponent

theorem two_pow_mul_two_zpow (count : Nat) (exponent : Int) :
    (2 : Rat) ^ count * 2 ^ exponent = 2 ^ (count + exponent) := by
  rw [zpow_add₀ (by norm_num), zpow_natCast]

theorem mul_two_zpow_le_mul {first second : Nat} (exponent : Int) (ordered : first ≤ second) :
    (first : Rat) * 2 ^ exponent ≤ second * 2 ^ exponent :=
  mul_le_mul_of_nonneg_right (Nat.cast_le.mpr ordered) (two_zpow_pos exponent).le

/-- A full mantissa at a greater exponent is greater. -/
theorem mul_two_zpow_lt_of_lt {mantissa other : Nat} {exponent otherExponent : Int}
    (less : otherExponent < exponent) (small : other < 2 ^ 53) (full : 2 ^ 52 ≤ mantissa) :
    (other : Rat) * 2 ^ otherExponent < mantissa * 2 ^ exponent := by
  calc
    (other : Rat) * 2 ^ otherExponent < 2 ^ 53 * 2 ^ otherExponent := by
      refine mul_lt_mul_of_pos_right ?_ (two_zpow_pos otherExponent)
      exact_mod_cast small
    _ = 2 ^ (((53 : Nat) : Int) + otherExponent) := two_pow_mul_two_zpow _ _
    _ ≤ 2 ^ (((52 : Nat) : Int) + exponent) := by
      refine zpow_le_zpow_right₀ (by norm_num) ?_
      push_cast
      omega
    _ = 2 ^ 52 * 2 ^ exponent := (two_pow_mul_two_zpow _ _).symm
    _ ≤ mantissa * 2 ^ exponent := by exact_mod_cast mul_two_zpow_le_mul exponent full

theorem cast_apply (sign : Sign) (mantissa : Nat) :
    ((sign.apply mantissa : Int) : Rat) = (sign.apply 1 : Int) * mantissa := by
  cases sign <;> simp [Sign.apply]

/-- A number below the normal ones is unpacked as it was packed. -/
theorem unpack_pack_subnormal {mantissa : Nat} (sign : Sign) (positive : 0 < mantissa)
    (small : mantissa < 2 ^ 52) :
    (Float.Model.pack (.finite sign mantissa (-1074) positive)).unpack =
      .finite sign mantissa (-1074) positive := by
  change UnpackedFloat.unpack Format.binary64 (UnpackedFloat.pack Format.binary64 _) = _
  have log2Lt : mantissa.log2 < 52 := (Nat.log2_lt (Nat.ne_of_gt positive)).mpr small
  have packed : UnpackedFloat.pack Format.binary64 (.finite sign mantissa (-1074) positive) =
      packComponents Format.binary64 sign 0#11 (BitVec.ofNat 52 mantissa) := by
    have biasedIs : (-1074 + (Format.binary64.exponentBias : Int) +
        (Format.binary64.mantissaBitsWithoutImplicit : Int)).toNat = 1 := rfl
    have notFull : ¬ mantissa.log2 + 1 = Format.binary64.mantissaBits := by
      simp only [Format.mantissaBits]
      omega
    simp only [UnpackedFloat.pack, biasedIs]
    rw [if_neg (by decide), if_neg notFull]
  have mantissaIs : (BitVec.ofNat 52 mantissa).toNat = mantissa := by
    rw [BitVec.toNat_ofNat, Nat.mod_eq_of_lt small]
  have notZero : BitVec.ofNat 52 mantissa ≠ 0#52 := by
    intro isZero
    have values := congrArg BitVec.toNat isZero
    rw [mantissaIs] at values
    simp at values
    omega
  rw [packed]
  simp only [UnpackedFloat.unpack, unpackExponent_packComponents, unpackMantissa_packComponents,
    unpackSign_pack, ofBitVec_toBitVec]
  rw [if_neg (by decide), if_pos trivial, dif_neg notZero]
  simp only [mantissaIs]
  rfl

/-- A canonical form whose exponent is not too large is unpacked as it was packed. -/
theorem unpack_pack_of_isCanonical {mantissa : Nat} {exponent : Int} (sign : Sign)
    (positive : 0 < mantissa) (canonical : IsCanonical mantissa exponent) (atMost : exponent ≤ 971) :
    (Float.Model.pack (.finite sign mantissa exponent positive)).unpack =
      .finite sign mantissa exponent positive := by
  obtain ⟨lt, atLeast, full⟩ := canonical
  have notZero : mantissa ≠ 0 := Nat.ne_of_gt positive
  by_cases normal : 2 ^ 52 ≤ mantissa
  · have log2Eq : mantissa.log2 = 52 := (Nat.log2_eq_iff notZero).mpr ⟨normal, lt⟩
    exact unpack_pack_eq sign log2Eq atLeast atMost positive
  · obtain rfl : exponent = -1074 := full.resolve_left normal
    exact unpack_pack_subnormal sign positive (Nat.lt_of_not_le normal)

theorem unpack_pack_of_large {mantissa : Nat} {exponent : Int} (sign : Sign)
    (positive : 0 < mantissa) (large : 972 ≤ exponent) :
    (Float.Model.pack (.finite sign mantissa exponent positive)).unpack = .infinity sign := by
  change UnpackedFloat.unpack Format.binary64 (UnpackedFloat.pack Format.binary64 _) = _
  have overflows : 2 ^ Format.binary64.exponentBits ≤
      (exponent + (Format.binary64.exponentBias : Int) +
        (Format.binary64.mantissaBitsWithoutImplicit : Int)).toNat + 1 := by
    simp [Format.exponentBias]
    omega
  simp only [UnpackedFloat.pack]
  rw [if_pos overflows]
  cases sign <;> rfl

theorem unpack_pack_infinity (sign : Sign) :
    (Float.Model.pack (.infinity sign)).unpack = .infinity sign := by
  cases sign <;> rfl

theorem unpack_pack_notANumber : (Float.Model.pack .notANumber).unpack = .notANumber :=
  rfl

/-- A canonical form is unpacked as it was packed, if it is still finite then. -/
theorem unpack_pack_of_isFinite {number : UnpackedFloat} (canonical : Canonical number)
    (finite : (Float.Model.pack number).unpack.isFinite = true) :
    (Float.Model.pack number).unpack = number := by
  cases canonical with
  | zero sign => cases sign <;> rfl
  | @finite sign mantissa exponent positive canonical =>
      by_cases atMost : exponent ≤ 971
      · exact unpack_pack_of_isCanonical sign positive canonical atMost
      · rw [unpack_pack_of_large sign positive (by omega)] at finite
        simp [UnpackedFloat.isFinite] at finite

/-- What is unpacked is in canonical form. -/
theorem isCanonical_of_unpack {number : Float} {sign : Sign} {mantissa : Nat} {exponent : Int}
    {positive : 0 < mantissa}
    (unpacked : number.toModel.unpack = .finite sign mantissa exponent positive) :
    IsCanonical mantissa exponent ∧ exponent ≤ 971 := by
  change UnpackedFloat.unpack Format.binary64 number.toModel.toBits.toBitVec = _ at unpacked
  generalize number.toModel.toBits.toBitVec = bits at unpacked
  simp only [UnpackedFloat.unpack] at unpacked
  split at unpacked
  · split at unpacked <;> cases unpacked
  · next notTop =>
    have exponentLt : (@unpackExponent Format.binary64 bits).toNat ≤ 2046 := by
      have inRange := (@unpackExponent Format.binary64 bits).isLt
      have notMax : (@unpackExponent Format.binary64 bits).toNat ≠ 2047 := by
        intro isMax
        exact notTop (BitVec.eq_of_toNat_eq isMax)
      simp at inRange
      omega
    split at unpacked
    · next isBottom =>
      split at unpacked
      · cases unpacked
      · cases unpacked
        rw [isBottom]
        exact ⟨⟨Nat.lt_trans (BitVec.isLt _) (by decide), by decide, Or.inr rfl⟩, by decide⟩
    · next notBottom =>
      cases unpacked
      have notZero : (@unpackExponent Format.binary64 bits).toNat ≠ 0 := by
        intro isZero
        exact notBottom (BitVec.eq_of_toNat_eq isZero)
      have full : 2 ^ 52 ≤ (1#1 ++ @unpackMantissa Format.binary64 bits).toNat := by
        rw [BitVec.toNat_append]
        exact Nat.left_le_or
      refine ⟨⟨BitVec.isLt _, ?_, Or.inl full⟩, ?_⟩ <;> simp [Format.exponentBias] <;> omega

theorem canonical_unpack {number : Float} (finite : number.isFinite = true) :
    Canonical number.toModel.unpack := by
  have isFinite : number.toModel.unpack.isFinite = true := finite
  cases unpacked : number.toModel.unpack with
  | notANumber => simp [unpacked, UnpackedFloat.isFinite] at isFinite
  | infinity sign => simp [unpacked, UnpackedFloat.isFinite] at isFinite
  | zero sign => exact .zero sign
  | finite sign mantissa exponent positive =>
      exact .finite sign positive (isCanonical_of_unpack unpacked).1

/-- Of two canonical magnitudes the greater has the greater exponent, or the same and the greater
mantissa. -/
theorem IsCanonical.mul_le_mul_iff {mantissa other : Nat} {exponent otherExponent : Int}
    (canonical : IsCanonical mantissa exponent) (otherCanonical : IsCanonical other otherExponent) :
    (mantissa : Rat) * 2 ^ exponent ≤ other * 2 ^ otherExponent ↔
      exponent < otherExponent ∨ exponent = otherExponent ∧ mantissa ≤ other := by
  rcases Int.lt_trichotomy exponent otherExponent with less | rfl | greater
  · have full := otherCanonical.full.resolve_right (by have := canonical.atLeast; omega)
    exact iff_of_true (mul_two_zpow_lt_of_lt less canonical.lt full).le (Or.inl less)
  · rw [mul_le_mul_iff_left₀ (two_zpow_pos exponent), Nat.cast_le]
    omega
  · have full := canonical.full.resolve_right (by have := otherCanonical.atLeast; omega)
    refine iff_of_false (not_le.mpr (mul_two_zpow_lt_of_lt greater otherCanonical.lt full)) ?_
    omega

theorem value_finite (sign : Sign) {mantissa : Nat} {exponent : Int} (positive : 0 < mantissa) :
    value (.finite sign mantissa exponent positive) =
      (sign.apply 1 : Int) * (mantissa * 2 ^ exponent) := by
  rw [value, cast_apply, mul_assoc]

theorem magnitude_pos {mantissa : Nat} (positive : 0 < mantissa) (exponent : Int) :
    (0 : Rat) < mantissa * 2 ^ exponent :=
  mul_pos (Nat.cast_pos.mpr positive) (two_zpow_pos exponent)

/-- Canonical forms are ordered as the numbers they stand for. -/
theorem place_le_place_iff {first second : UnpackedFloat} (canonical : Canonical first)
    (otherCanonical : Canonical second) :
    place first ≤ place second ↔ value first ≤ value second := by
  cases canonical with
  | zero sign =>
      cases otherCanonical with
      | zero other => simp [place, value]
      | @finite other mantissa exponent positive =>
          have magnitudePos := magnitude_pos positive exponent
          rw [value_finite]
          cases other with
          | negative => simp [place, value, Sign.apply, Prod.Lex.toLex_le_toLex, magnitudePos]
          | positive =>
              simp [place, value, Sign.apply, Prod.Lex.toLex_le_toLex]
              positivity
  | @finite sign mantissa exponent positive canonical =>
      have magnitudePos := magnitude_pos positive exponent
      rw [value_finite]
      cases otherCanonical with
      | zero other =>
          cases sign with
          | negative =>
              simp [place, value, Sign.apply, Prod.Lex.toLex_le_toLex]
              positivity
          | positive => simp [place, value, Sign.apply, Prod.Lex.toLex_le_toLex, magnitudePos]
      | @finite other otherMantissa otherExponent otherPositive otherCanonical =>
          have otherMagnitudePos := magnitude_pos otherPositive otherExponent
          rw [value_finite]
          cases sign <;> cases other <;> simp only [place, Sign.apply, Prod.Lex.toLex_le_toLex]
          · simp [otherCanonical.mul_le_mul_iff canonical, eq_comm]
          · refine iff_of_true (Or.inl (by decide)) ?_
            push_cast
            linarith
          · refine iff_of_false (by simp) ?_
            push_cast
            linarith
          · simp [canonical.mul_le_mul_iff otherCanonical]

/-- A canonical form is packed on the same side of every finite double, also when it is so large
that it becomes infinite. -/
theorem place_unpack_pack {number : Float} {rounded : UnpackedFloat}
    (finite : number.isFinite = true) (canonical : Canonical rounded) :
    (value number.toModel.unpack ≤ value rounded →
      place number.toModel.unpack ≤ place (Float.Model.pack rounded).unpack) ∧
    (value rounded ≤ value number.toModel.unpack →
      place (Float.Model.pack rounded).unpack ≤ place number.toModel.unpack) := by
  have numberCanonical := canonical_unpack finite
  rw [← place_le_place_iff numberCanonical canonical, ← place_le_place_iff canonical numberCanonical]
  cases canonical with
  | zero sign => cases sign <;> exact ⟨id, id⟩
  | @finite sign mantissa exponent positive canonical =>
      by_cases atMost : exponent ≤ 971
      · rw [unpack_pack_of_isCanonical sign positive canonical atMost]
        exact ⟨id, id⟩
      · -- the exponent is above that of any finite double, on whose side infinity is too
        rw [unpack_pack_of_large sign positive (by omega)]
        cases unpacked : number.toModel.unpack with
        | infinity other => rw [unpacked] at numberCanonical; cases numberCanonical
        | notANumber => rw [unpacked] at numberCanonical; cases numberCanonical
        | zero other => cases sign <;> simp [place, Prod.Lex.toLex_le_toLex]
        | finite other otherMantissa otherExponent otherPositive =>
            have otherAtMost := (isCanonical_of_unpack unpacked).2
            cases sign <;> cases other <;> simp [place, Prod.Lex.toLex_le_toLex] <;> omega

end Double

end CacheRouting
