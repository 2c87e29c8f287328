import CacheRouting.Bucket
import Mathlib

/-!
# The range of bucket addressing

A key is given a bucket in one of two ways.  An administrative key spells it with
a quarter of the digits that the bucket has bits; any other key has it in the top
bits of its hash.  Either way the bucket is below a power of two that does not
exceed the number of buckets.
-/

namespace CacheRouting

theorem Text.hexValue?_lt {character : Char} {value : Nat}
    (read : Text.hexValue? character = some value) : value < 16 := by
  simp only [Text.hexValue?] at read
  split at read
  · cases read
    omega
  · split at read
    · cases read
      omega
    · split at read
      · cases read
        omega
      · cases read

namespace Bucket

theorem width_eq_log2 (count : Nat) : width count = count.log2 := by
  unfold width
  split
  · next small =>
    rcases Nat.le_one_iff_eq_zero_or_eq_one.mp small with rfl | rfl <;> rfl
  · rfl

theorem two_pow_width_le {count : Nat} (positive : 0 < count) : 2 ^ width count ≤ count := by
  rw [width_eq_log2]
  exact Nat.log2_self_le (Nat.pos_iff_ne_zero.mp positive)

theorem width_le {count bits : Nat} (few : count ≤ 2 ^ bits) : width count ≤ bits := by
  rw [width_eq_log2]
  by_cases isZero : count = 0
  · simp [isZero]
  · have log2Lt : count.log2 < bits + 1 := by
      rw [Nat.log2_lt isZero, Nat.pow_succ]
      have positive := Nat.two_pow_pos bits
      omega
    omega

theorem four_mul_digitCount_le (count : Nat) : 4 * digitCount count ≤ width count :=
  Nat.mul_div_le (width count) 4

theorem byteValue_lt (byte : UInt8) : byteValue byte < 16 := by
  unfold byteValue
  cases read : Text.hexValue? (Char.ofNat byte.toNat) with
  | none => decide
  | some value => exact Text.hexValue?_lt read

theorem foldl_byteValue_lt (bytes : List UInt8) (number : Nat) :
    bytes.foldl (fun number byte => number * 16 + byteValue byte) number <
      (number + 1) * 16 ^ bytes.length := by
  induction bytes generalizing number with
  | nil => simp
  | cons byte bytes ih =>
      have digit := byteValue_lt byte
      rw [List.foldl_cons, List.length_cons]
      calc
        bytes.foldl (fun number byte => number * 16 + byteValue byte) (number * 16 + byteValue byte)
            < (number * 16 + byteValue byte + 1) * 16 ^ bytes.length := ih _
        _ ≤ (number + 1) * 16 * 16 ^ bytes.length := by
          apply Nat.mul_le_mul_right
          omega
        _ = (number + 1) * 16 ^ (bytes.length + 1) := by
          rw [Nat.pow_succ, Nat.mul_assoc, Nat.mul_comm 16]

theorem spelled_lt (bytes : List UInt8) : spelled bytes < 16 ^ bytes.length := by
  simpa [spelled] using foldl_byteValue_lt bytes 0

theorem spelled_append_singleton (digits : List UInt8) (last : UInt8) :
    spelled (digits ++ [last]) = 16 * spelled digits + byteValue last := by
  simp [spelled, List.foldl_append, Nat.mul_comm]

theorem topBits_lt {bits hash : Nat} (word : hash < 2 ^ 32) : topBits bits hash < 2 ^ bits := by
  rw [topBits, Nat.shiftRight_eq_div_pow, Nat.div_lt_iff_lt_mul (Nat.two_pow_pos _), ← Nat.pow_add]
  refine Nat.lt_of_lt_of_le word (Nat.pow_le_pow_right (by decide) ?_)
  omega

theorem hashed_lt (method : HashMethod) (count : Nat) (key : List UInt8) :
    hashed method count key < 2 ^ width count :=
  topBits_lt (UInt32.toNat_lt _)

/-- Either the digits that spell the bucket all stand in the key, or the key is hashed. -/
theorem ofBytes_cases (method : HashMethod) (count : Nat) (key : List UInt8) :
    (∃ digits rest, key = 0x40 :: (digits ++ rest) ∧ digits.length = digitCount count ∧
      ofBytes method count key = spelled digits) ∨
      ofBytes method count key = hashed method count key := by
  unfold ofBytes
  split
  · next rest =>
    split
    · next enough =>
      refine Or.inl ⟨rest.take (digitCount count), rest.drop (digitCount count), ?_, ?_, rfl⟩
      · rw [List.take_append_drop]
      · exact List.length_take_of_le enough
    · exact Or.inr rfl
  · exact Or.inr rfl

theorem ofBytes_lt (method : HashMethod) (count : Nat) (key : List UInt8) :
    ofBytes method count key < 2 ^ width count := by
  rcases ofBytes_cases method count key with ⟨digits, rest, -, length, isSpelled⟩ | isHashed
  · rw [isSpelled]
    calc
      spelled digits < 16 ^ digitCount count := length ▸ spelled_lt digits
      _ = 2 ^ (4 * digitCount count) := by rw [Nat.pow_mul]
      _ ≤ 2 ^ width count := Nat.pow_le_pow_right (by decide) (four_mul_digitCount_le count)
  · rw [isHashed]
    exact hashed_lt method count key

end Bucket

end CacheRouting
