import CacheRouting.Proofs.Auto.Probes
import CacheRouting.Proofs.Routing.Reach

/-!
# Buckets as leading parts

A bucket is a leading part of the hash of its key, so among fewer buckets it is a
leading part of the bucket among more.  For keys that spell their bucket this holds
as well, where buckets consist of whole digits and enough of them are there.  A
question mark in front has a key hashed, whatever the key starts with.
-/

namespace CacheRouting

namespace Bucket

variable {fewer more : Nat}

theorem topBits_eq_div (hash : Nat) (narrower : fewer ≤ more) (fits : more ≤ 32) :
    topBits fewer hash = topBits more hash / 2 ^ (more - fewer) := by
  have dropped : 32 - fewer = (32 - more) + (more - fewer) := by omega
  rw [topBits, topBits, Nat.shiftRight_eq_div_pow, Nat.shiftRight_eq_div_pow,
    Nat.div_div_eq_div_mul, ← Nat.pow_add, dropped]

/-- A question mark in front is dropped, and it keeps what is behind it from being read as digits. -/
theorem ofKey_question_append (method : HashMethod) (count : Nat) (key : String) :
    ofKey method count ("?" ++ key) = topBits (width count) (method.hashText key) := by
  have bytes : Text.utf8 ("?" ++ key) = 0x3f :: Text.utf8 key := Text.utf8_append "?" key
  rw [ofKey, bytes]
  rfl

/-- Digits behind others only count below the place of these. -/
theorem spelled_append_div (high low : List UInt8) :
    spelled (high ++ low) / 16 ^ low.length = spelled high := by
  induction low using List.reverseRecOn with
  | nil => rw [List.append_nil, List.length_nil, Nat.pow_zero, Nat.div_one]
  | append_singleton low last ih =>
      have cut : (16 * spelled (high ++ low) + byteValue last) / 16 = spelled (high ++ low) := by
        have digit := byteValue_lt last
        omega
      rw [← List.append_assoc, spelled_append_singleton, List.length_append, List.length_singleton,
        Nat.pow_succ', ← Nat.div_div_eq_div_mul, cut, ih]

theorem spelled_take (bytes : List UInt8) (kept : Nat) :
    spelled (bytes.take kept) = spelled bytes / 16 ^ (bytes.length - kept) := by
  have cut := spelled_append_div (bytes.take kept) (bytes.drop kept)
  rw [List.take_append_drop, List.length_drop] at cut
  exact cut.symm

/-- A key that has all digits behind its sign spells its bucket with them. -/
theorem ofKey_of_enough {key : String} {rest : List UInt8} {count : Nat}
    (bytes : Text.utf8 key = 0x40 :: rest) (enough : digitCount count ≤ rest.length)
    (method : HashMethod) : ofKey method count key = spelled (rest.take (digitCount count)) := by
  rw [ofKey, bytes, ofBytes, if_pos enough]

theorem ofKey_eq_div_of_sign {key : String} (sign : key.toList.head? = some '@')
    (narrower : width fewer ≤ width more) (wholeDigits : 4 ∣ width fewer ∧ 4 ∣ width more)
    (enough : width more / 4 < (Text.utf8 key).length) (method : HashMethod) :
    ofKey method fewer key = ofKey method more key / 2 ^ (width more - width fewer) := by
  obtain ⟨rest, bytes⟩ := List.head?_eq_some_iff.mp ((Text.head?_utf8_iff (by decide)).mpr sign)
  have moreEnough : digitCount more ≤ rest.length := by
    rw [bytes, List.length_cons] at enough
    exact Nat.le_of_lt_succ enough
  have shorter : digitCount fewer ≤ digitCount more := Nat.div_le_div_right narrower
  have bits : width more - width fewer = 4 * (digitCount more - digitCount fewer) := by
    unfold digitCount
    omega
  have first : rest.take (digitCount fewer) =
      (rest.take (digitCount more)).take (digitCount fewer) := by
    rw [List.take_take, Nat.min_eq_left shorter]
  rw [ofKey_of_enough bytes (shorter.trans moreEnough), ofKey_of_enough bytes moreEnough, first,
    spelled_take, List.length_take_of_le moreEnough, bits, Nat.pow_mul]

theorem ofKey_eq_div_of_head?_ne {key : String} (noSign : key.toList.head? ≠ some '@')
    (narrower : width fewer ≤ width more) (fits : width more ≤ 32) (method : HashMethod) :
    ofKey method fewer key = ofKey method more key / 2 ^ (width more - width fewer) := by
  rw [ofKey_of_head?_ne noSign, ofKey_of_head?_ne noSign]
  exact topBits_eq_div _ narrower fits

/-- Among fewer buckets a key has the leading part of its bucket among more, whether they are a
power of two or not, if it is hashed or spells whole digits.  Behind a question mark every key
has the leading part of its hash, as an ordinary key has without it. -/
theorem buckets_are_leading_parts (method : HashMethod) {fewer more : Nat}
    (narrower : width fewer ≤ width more) (fits : width more ≤ 32) :
    (∀ key : String,
      (key.toList.head? = some '@' →
        (4 ∣ width fewer ∧ 4 ∣ width more) ∧ width more / 4 < (Text.utf8 key).length) →
      ofKey method fewer key = ofKey method more key / 2 ^ (width more - width fewer)) ∧
    ∀ count key,
      ofKey method count ("?" ++ key) = method.hashText key / 2 ^ (32 - width count) ∧
        (IsOrdinary key → ofKey method count ("?" ++ key) = ofKey method count key) := by
  constructor
  · intro key whereSpelled
    by_cases sign : key.toList.head? = some '@'
    · obtain ⟨wholeDigits, enough⟩ := whereSpelled sign
      exact ofKey_eq_div_of_sign sign narrower wholeDigits enough method
    · exact ofKey_eq_div_of_head?_ne sign narrower fits method
  · intro count key
    rw [ofKey_question_append]
    constructor
    · rw [topBits, Nat.shiftRight_eq_div_pow]
    · exact fun ordinary => (ofKey_of_isOrdinary ordinary method count).symm

/-- What is no digit counts as zero, also where it is cut off. -/
theorem buckets_are_leading_parts_of_two_digits :
    width 20 ≤ width 300 ∧ width 300 ≤ 32 ∧ ofKey .md5 300 "@bz/" = 0xb0 ∧
      ofKey .md5 20 "@bz/" = 0xb0 / 2 ^ 4 ∧ ofKey .md5 300 "?b@" = ofKey .md5 300 "b@" := by
  have narrower : width 20 ≤ width 300 := by decide
  have fits : width 300 ≤ 32 := by decide
  obtain ⟨leading, escaped⟩ := buckets_are_leading_parts .md5 narrower fits
  have spells : ofKey .md5 300 "@bz/" = 0xb0 := by decide +kernel
  have cut := leading "@bz/" fun _ => by decide
  rw [spells] at cut
  exact ⟨narrower, fits, spells, cut, (escaped 300 "b@").2 ⟨by decide, by decide⟩⟩

end Bucket

end CacheRouting
