import CacheRouting.HashMethod
import Mathlib.Algebra.Group.Units.Equiv
import Mathlib.Algebra.Ring.Parity
import Mathlib.Data.Int.GCD
import Mathlib.Data.Nat.Prime.Basic
import Mathlib.Data.UInt

/-!
# Collisions of the avalanche hash

Every operation of the hash can be undone.  Adding a copy shifted up is a multiplication
by an odd word, as is the last thing done with each byte, and odd words have inverses.
Combining a word with its copy shifted down, done twice, is the same with twice the shift,
and a shift by half a word or more is undone by doing it again.  So the avalanche step is a
bijection of words, and no two messages collide that differ in one byte only.
-/

namespace CacheRouting

namespace Digest

theorem isUnit_of_odd {word : UInt32} (odd : Odd word.toNat) : IsUnit word := by
  have coprime : word.toNat.Coprime (2 ^ 32) := (Nat.coprime_two_right.mpr odd).pow_right 32
  obtain ⟨inverse, -, isOne⟩ := Nat.exists_mul_mod_eq_one_of_coprime coprime (by decide)
  refine IsUnit.of_mul_eq_one (UInt32.ofNat inverse) (UInt32.toNat_inj.mp ?_)
  rw [UInt32.toNat_mul, UInt32.toNat_ofNat', Nat.mul_mod_mod, isOne]
  rfl

theorem mul_bijective_of_odd {factor : UInt32} (odd : Odd factor.toNat) :
    Function.Bijective (· * factor) :=
  IsUnit.isUnit_iff_mulRight_bijective.mp (isUnit_of_odd odd)

theorem addShifted_eq_mul (amount word : UInt32) :
    addShifted amount word = word * (1 <<< amount + 1) := by
  have shifted : word <<< amount = word * 1 <<< amount := by
    apply UInt32.toNat_inj.mp
    rw [UInt32.toNat_mul, UInt32.toNat_shiftLeft, UInt32.toNat_shiftLeft, Nat.shiftLeft_eq,
      Nat.mul_mod_mod, UInt32.toNat_one, Nat.one_shiftLeft]
  rw [addShifted, shifted, mul_add, mul_one, add_comm]

theorem odd_shifted_add_one {amount : UInt32} (moves : 0 < amount.toNat)
    (fits : amount.toNat < 32) : Odd ((1 : UInt32) <<< amount + 1).toNat := by
  have even : 2 ^ amount.toNat = 2 * 2 ^ (amount.toNat - 1) := by
    rw [← Nat.pow_succ', Nat.succ_eq_add_one, Nat.sub_add_cancel moves]
  rw [UInt32.toNat_add, UInt32.toNat_shiftLeft, UInt32.toNat_one, Nat.mod_eq_of_lt fits,
    Nat.one_shiftLeft, even, Nat.odd_iff]
  omega

theorem addShifted_bijective {amount : UInt32} (moves : 0 < amount.toNat)
    (fits : amount.toNat < 32) : Function.Bijective (addShifted amount) := by
  have isMul : addShifted amount = (· * (1 <<< amount + 1)) := funext (addShifted_eq_mul amount)
  rw [isMul]
  exact mul_bijective_of_odd (odd_shifted_add_one moves fits)

theorem xorShifted_xorShifted (amount word : UInt32) :
    xorShifted amount (xorShifted amount word) = word ^^^ word >>> amount >>> amount := by
  simp only [xorShifted]
  rw [UInt32.shiftRight_xor, UInt32.xor_assoc, ← UInt32.xor_assoc (word >>> amount),
    UInt32.xor_self, UInt32.zero_xor]

/-- A shift by half a word or more, done twice, leaves nothing to combine with. -/
theorem xorShifted_involutive {amount : UInt32} (atLeastHalf : 16 ≤ amount.toNat)
    (fits : amount.toNat < 32) : Function.Involutive (xorShifted amount) := by
  intro word
  have nothingLeft : word >>> amount >>> amount = 0 := by
    apply UInt32.toNat_inj.mp
    rw [UInt32.toNat_shiftRight, UInt32.toNat_shiftRight, Nat.mod_eq_of_lt fits,
      ← Nat.shiftRight_add, Nat.shiftRight_eq_div_pow]
    exact Nat.div_eq_of_lt (word.toNat_lt.trans_le (Nat.pow_le_pow_right (by decide) (by omega)))
  rw [xorShifted_xorShifted, nothingLeft, UInt32.xor_zero]

theorem toNat_add_self {amount : UInt32} (underHalf : amount.toNat < 16) :
    (amount + amount).toNat = amount.toNat + amount.toNat := by
  rw [UInt32.toNat_add, Nat.mod_eq_of_lt (by omega)]

theorem xorShifted_comp_xorShifted {amount : UInt32} (underHalf : amount.toNat < 16) :
    xorShifted amount ∘ xorShifted amount = xorShifted (amount + amount) := by
  funext word
  have shiftedTwice : word >>> amount >>> amount = word >>> (amount + amount) := by
    apply UInt32.toNat_inj.mp
    rw [UInt32.toNat_shiftRight, UInt32.toNat_shiftRight, UInt32.toNat_shiftRight,
      toNat_add_self underHalf, Nat.mod_eq_of_lt (by omega), Nat.mod_eq_of_lt (by omega),
      Nat.shiftRight_add]
  rw [Function.comp_apply, xorShifted_xorShifted, shiftedTwice, xorShifted]

theorem xorShifted_bijective {amount : UInt32} (moves : 0 < amount.toNat)
    (fits : amount.toNat < 32) : Function.Bijective (xorShifted amount) := by
  -- The shift is doubled until it is at least half the word.
  rcases Nat.lt_or_ge amount.toNat 16 with underHalf | atLeastHalf
  · have doubled := toNat_add_self underHalf
    have twice : Function.Bijective (xorShifted amount ∘ xorShifted amount) := by
      rw [xorShifted_comp_xorShifted underHalf]
      exact xorShifted_bijective (by omega) (by omega)
    exact ⟨twice.injective.of_comp, twice.surjective.of_comp⟩
  · exact (xorShifted_involutive atLeastHalf fits).bijective
termination_by 32 - amount.toNat
decreasing_by omega

theorem avalanche_bijective : Function.Bijective avalanche :=
  (addShifted_bijective (by decide) (by decide)).comp <|
    (xorShifted_bijective (by decide) (by decide)).comp <|
    (addShifted_bijective (by decide) (by decide)).comp <|
    (xorShifted_bijective (by decide) (by decide)).comp <|
    addShifted_bijective (by decide) (by decide)

theorem mul_fnvPrime_bijective : Function.Bijective (· * fnvPrime) :=
  mul_bijective_of_odd (by decide)

theorem fnvMix_state_injective (byte : UInt8) : Function.Injective (fnvMix · byte) := by
  intro first second same
  have unmultiplied := mul_fnvPrime_bijective.injective same
  exact (UInt32.xor_left_inj byte.toUInt32).mp unmultiplied

theorem fnvMix_byte_injective (state : UInt32) : Function.Injective (fnvMix state) := by
  intro first second same
  have unmultiplied := mul_fnvPrime_bijective.injective same
  exact UInt8.toUInt32_inj.mp ((UInt32.xor_right_inj state).mp unmultiplied)

/-- Different states stay different, whatever bytes follow. -/
theorem foldl_fnvMix_injective (bytes : List UInt8) :
    Function.Injective (bytes.foldl fnvMix ·) := by
  induction bytes with
  | nil => exact Function.injective_id
  | cons byte bytes ih => exact ih.comp (fnvMix_state_injective byte)

theorem fnv1a_append_cons_eq_iff {before after : List UInt8} {first second : UInt8} :
    fnv1a (before ++ first :: after) = fnv1a (before ++ second :: after) ↔ first = second := by
  simp only [fnv1a, List.foldl_append, List.foldl_cons]
  exact ((foldl_fnvMix_injective after).comp (fnvMix_byte_injective _)).eq_iff

end Digest

namespace HashMethod

/-- The avalanche step is a bijection of words, messages collide with it exactly if they
collide without it, and those that differ in one byte, the last one or any other, never do. -/
theorem avalanche_adds_no_collisions :
    Function.Bijective Digest.avalanche ∧
      (∀ first second : List UInt8,
        fnv1a1.hashBytes first = fnv1a1.hashBytes second ↔
          fnv1a.hashBytes first = fnv1a.hashBytes second) ∧
      ∀ (before after : List UInt8) (first second : UInt8),
        fnv1a1.hashBytes (before ++ first :: after) =
            fnv1a1.hashBytes (before ++ second :: after) ↔
          first = second := by
  have collideAlike (first second : List UInt8) :
      fnv1a1.hashBytes first = fnv1a1.hashBytes second ↔
        fnv1a.hashBytes first = fnv1a.hashBytes second :=
    Digest.avalanche_bijective.injective.eq_iff
  refine ⟨Digest.avalanche_bijective, collideAlike, ?_⟩
  intro before after first second
  rw [collideAlike]
  exact Digest.fnv1a_append_cons_eq_iff

/-- Two texts that collide without the avalanche step collide with it. -/
example : fnv1a1.hashText "costarring" = fnv1a1.hashText "liquid" := by decide

end HashMethod

end CacheRouting
