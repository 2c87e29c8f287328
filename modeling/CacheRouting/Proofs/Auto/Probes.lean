import CacheRouting.Auto.Listing
import CacheRouting.Proofs.Routing.Bucket
import CacheRouting.Proofs.Text.Utf8

/-!
# Buckets named by probes

A probe spells all digits of a bucket but the last, which a listing supplies.
Reading undoes writing: the probe of an index, with a digit behind it, names the
bucket sixteen times the index plus the digit, whatever follows.  So probes and
digits together name each bucket that can be spelled, and each only once.
-/

namespace CacheRouting

theorem Text.utf8EncodeChar_hexDigit {value : Nat} (small : value < 16) :
    String.utf8EncodeChar (Text.hexDigit value) = [UInt8.ofNat (Text.hexDigit value).toNat] := by
  have isAscii : ∀ value < 16, (Text.hexDigit value).toNat ≤ 0x7f := by decide
  exact Text.utf8EncodeChar_of_ascii (isAscii value small)

namespace Bucket

theorem byteValue_hexDigit {value : Nat} (small : value < 16) :
    byteValue (UInt8.ofNat (Text.hexDigit value).toNat) = value := by
  have readsBack : ∀ value < 16, byteValue (UInt8.ofNat (Text.hexDigit value).toNat) = value := by
    decide
  exact readsBack value small

theorem spelled_hexDigits {width number : Nat} (small : number < 16 ^ width) :
    spelled ((Text.hexDigits width number).flatMap String.utf8EncodeChar) = number := by
  induction width generalizing number with
  | zero =>
      have isZero : number = 0 := Nat.lt_one_iff.mp small
      rw [isZero]
      rfl
  | succ width ih =>
      have lastSmall : number % 16 < 16 := Nat.mod_lt _ (by decide)
      have highSmall : number / 16 < 16 ^ width :=
        Nat.div_lt_of_lt_mul (by rwa [Nat.pow_succ, Nat.mul_comm] at small)
      rw [Text.hexDigits, List.flatMap_append, List.flatMap_singleton,
        Text.utf8EncodeChar_hexDigit lastSmall, spelled_append_singleton, ih highSmall,
        byteValue_hexDigit lastSmall, Nat.div_add_mod]

theorem length_flatMap_hexDigits (width number : Nat) :
    ((Text.hexDigits width number).flatMap String.utf8EncodeChar).length = width := by
  induction width generalizing number with
  | zero => rfl
  | succ width ih =>
      rw [Text.hexDigits, List.flatMap_append, List.length_append, ih, List.flatMap_singleton,
        Text.utf8EncodeChar_hexDigit (Nat.mod_lt _ (by decide)), List.length_singleton]

/-- All digits of a bucket stand behind the sign of a key, so that nothing is hashed. -/
def Spells (count : Nat) (key : String) (digits : List UInt8) : Prop :=
  ∃ rest, Text.utf8 key = 0x40 :: (digits ++ rest) ∧ digits.length = digitCount count

theorem Spells.ofKey_eq {count : Nat} {key : String} {digits : List UInt8}
    (spells : Spells count key digits) (method : HashMethod) :
    ofKey method count key = spelled digits := by
  obtain ⟨rest, keyEq, length⟩ := spells
  rw [ofKey, keyEq, ofBytes, if_pos (by rw [← length, List.length_append]; omega), ← length,
    List.take_left]

end Bucket

namespace Listing

open Bucket (digitCount byteValue spelled ofKey Spells)

/-- The probe with an index: all digits of a bucket but the last. -/
def probe (count index : Nat) : String :=
  String.ofList ('@' :: Text.hexDigits (digitCount count - 1) index)

/-- With fewer than two digits there is only the bare sign. -/
theorem probeKeys_eq (count : Nat) :
    probeKeys count = (List.range (16 ^ (digitCount count - 1))).map (probe count) := by
  unfold probeKeys
  split
  · next few =>
    have noDigits : digitCount count - 1 = 0 := by omega
    simp [probe, noDigits, Text.hexDigits]
  · have powerEq : 1 <<< (4 * (digitCount count - 1)) = 16 ^ (digitCount count - 1) := by
      rw [Nat.one_shiftLeft, Nat.pow_mul]
    dsimp only
    rw [powerEq]
    rfl

theorem mem_probeKeys_iff {count : Nat} {key : String} :
    key ∈ probeKeys count ↔ ∃ index < 16 ^ (digitCount count - 1), probe count index = key := by
  simp only [probeKeys_eq, List.mem_map, List.mem_range]

/-- The bytes of a probe are the sign and digits that spell its index. -/
theorem exists_utf8_probe {count index : Nat} (known : index < 16 ^ (digitCount count - 1)) :
    ∃ digits, Text.utf8 (probe count index) = 0x40 :: digits ∧
      digits.length = digitCount count - 1 ∧ spelled digits = index := by
  refine ⟨(Text.hexDigits (digitCount count - 1) index).flatMap String.utf8EncodeChar, ?_,
    Bucket.length_flatMap_hexDigits .., Bucket.spelled_hexDigits known⟩
  rw [Text.utf8, probe, String.toList_ofList, List.flatMap_cons,
    Text.utf8EncodeChar_of_ascii (by decide)]
  rfl

/-- No probe is asked twice in a pass. -/
theorem nodup_probeKeys (count : Nat) : (probeKeys count).Nodup := by
  rw [probeKeys_eq]
  apply List.Nodup.map_on _ List.nodup_range
  intro first isFirst second isSecond same
  obtain ⟨digits, probeEq, -, firstEq⟩ := exists_utf8_probe (List.mem_range.mp isFirst)
  obtain ⟨otherDigits, otherProbeEq, -, secondEq⟩ := exists_utf8_probe (List.mem_range.mp isSecond)
  rw [same, otherProbeEq] at probeEq
  rw [← firstEq, ← secondEq, List.tail_eq_of_cons_eq probeEq]

variable {count : Nat}

/-- A probe with something behind it spells a bucket, the last digit being the first byte
of what stands behind. -/
theorem exists_spells_append {index : Nat} (known : index < 16 ^ (digitCount count - 1))
    {text : String} {first : UInt8} {rest : List UInt8} (textEq : Text.utf8 text = first :: rest) :
    ∃ digits, Spells count (probe count index ++ text) digits ∧
      (1 ≤ digitCount count → spelled digits = 16 * index + byteValue first) := by
  obtain ⟨digits, probeEq, length, value⟩ := exists_utf8_probe known
  have keyEq : Text.utf8 (probe count index ++ text) = 0x40 :: (digits ++ first :: rest) := by
    rw [Text.utf8_append, probeEq, textEq, List.cons_append]
  by_cases someDigits : 1 ≤ digitCount count
  · refine ⟨digits ++ [first], ⟨rest, by simp [keyEq], ?_⟩, fun _ => ?_⟩
    · rw [List.length_append, List.length_singleton]
      omega
    · rw [Bucket.spelled_append_singleton, value]
  · exact ⟨[], ⟨_, keyEq, by rw [List.length_nil]; omega⟩, fun some => absurd some someDigits⟩

/-- A probe with nothing behind it lacks the last digit, if there is one. -/
theorem not_spells_probe (someDigits : 1 ≤ digitCount count) {key : String}
    (isProbe : key ∈ probeKeys count) (digits : List UInt8) : ¬ Spells count key digits := by
  obtain ⟨index, known, rfl⟩ := mem_probeKeys_iff.mp isProbe
  obtain ⟨written, probeEq, length, -⟩ := exists_utf8_probe known
  rintro ⟨rest, keyEq, digitsLength⟩
  have sameBytes : written = digits ++ rest := List.tail_eq_of_cons_eq (probeEq.symm.trans keyEq)
  have lengthEq := congrArg List.length sameBytes
  rw [List.length_append] at lengthEq
  omega

theorem utf8_ne_nil {text : String} (notEmpty : text ≠ "") :
    ∃ first rest, Text.utf8 text = first :: rest := by
  cases bytesEq : Text.utf8 text with
  | cons first rest => exact ⟨first, rest, rfl⟩
  | nil =>
      have noCharacters : text.toList = [] := by
        cases charactersEq : text.toList with
        | nil => rfl
        | cons character characters =>
            rw [Text.utf8, charactersEq, List.flatMap_cons, List.append_eq_nil_iff] at bytesEq
            exact absurd bytesEq.1 String.utf8EncodeChar_ne_nil
      exact absurd (String.toList_eq_nil_iff.mp noCharacters) notEmpty

def lowerDigits : List Char := "0123456789abcdef".toList

theorem mem_lowerDigits_iff {digit : Char} :
    digit ∈ lowerDigits ↔ ∃ value < 16, Text.hexDigit value = digit := by
  have listed : lowerDigits = (List.range 16).map Text.hexDigit := by decide
  simp only [listed, List.mem_map, List.mem_range]

def entryKey (rest : String) (named : String × Char) : String :=
  named.1 ++ named.2.toString ++ "/" ++ rest

theorem utf8_digit_append {digit : Char} {byte : UInt8}
    (encoded : String.utf8EncodeChar digit = [byte]) (rest : String) :
    Text.utf8 (digit.toString ++ ("/" ++ rest)) = byte :: Text.utf8 ("/" ++ rest) := by
  rw [Text.utf8_append, Text.utf8, Char.toString_eq_singleton, String.toList_singleton,
    List.flatMap_singleton, encoded, List.singleton_append]

theorem ofKey_entryKey (someDigits : 1 ≤ digitCount count) (method : HashMethod)
    {index : Nat} (known : index < 16 ^ (digitCount count - 1)) {digit : Char} {byte : UInt8}
    (encoded : String.utf8EncodeChar digit = [byte]) (rest : String) :
    ofKey method count (entryKey rest (probe count index, digit)) =
      16 * index + byteValue byte := by
  obtain ⟨digits, spells, value⟩ :=
    exists_spells_append known (utf8_digit_append encoded rest)
  rw [← value someDigits, ← spells.ofKey_eq method, entryKey, String.append_assoc,
    String.append_assoc]

theorem ofKey_entryKey_hexDigit (someDigits : 1 ≤ digitCount count) (method : HashMethod)
    {index value : Nat} (known : index < 16 ^ (digitCount count - 1)) (small : value < 16)
    (rest : String) :
    ofKey method count (entryKey rest (probe count index, Text.hexDigit value)) =
      16 * index + value := by
  rw [ofKey_entryKey someDigits method known (Text.utf8EncodeChar_hexDigit small),
    Bucket.byteValue_hexDigit small]

theorem sixteen_pow_digitCount (someDigits : 1 ≤ digitCount count) :
    16 ^ digitCount count = 16 * 16 ^ (digitCount count - 1) := by
  rw [← Nat.pow_succ', Nat.succ_eq_add_one, Nat.sub_add_cancel someDigits]

/-- Probes and digits name the buckets that can be spelled, each of them once. -/
theorem bijOn_entryKey (someDigits : 1 ≤ digitCount count) (method : HashMethod) (rest : String) :
    Set.BijOn (fun named => ofKey method count (entryKey rest named))
      {named | named.1 ∈ probeKeys count ∧ named.2 ∈ lowerDigits}
      (Set.Iio (16 ^ digitCount count)) := by
  have powerEq := sixteen_pow_digitCount someDigits
  refine ⟨?_, ?_, ?_⟩
  · rintro ⟨key, digit⟩ ⟨isProbe, isDigit⟩
    obtain ⟨index, known, rfl⟩ := mem_probeKeys_iff.mp isProbe
    obtain ⟨value, small, rfl⟩ := mem_lowerDigits_iff.mp isDigit
    simp only [ofKey_entryKey_hexDigit someDigits method known small, Set.mem_Iio]
    omega
  · rintro ⟨key, digit⟩ ⟨isProbe, isDigit⟩ ⟨otherKey, otherDigit⟩ ⟨otherIsProbe, otherIsDigit⟩ same
    obtain ⟨index, known, rfl⟩ := mem_probeKeys_iff.mp isProbe
    obtain ⟨value, small, rfl⟩ := mem_lowerDigits_iff.mp isDigit
    obtain ⟨otherIndex, otherKnown, rfl⟩ := mem_probeKeys_iff.mp otherIsProbe
    obtain ⟨otherValue, otherSmall, rfl⟩ := mem_lowerDigits_iff.mp otherIsDigit
    simp only [ofKey_entryKey_hexDigit someDigits method known small,
      ofKey_entryKey_hexDigit someDigits method otherKnown otherSmall] at same
    have sameIndex : index = otherIndex := by omega
    have sameValue : value = otherValue := by omega
    rw [sameIndex, sameValue]
  · intro bucket below
    rw [Set.mem_Iio] at below
    have known : bucket / 16 < 16 ^ (digitCount count - 1) :=
      Nat.div_lt_of_lt_mul (powerEq ▸ below)
    have small : bucket % 16 < 16 := Nat.mod_lt _ (by decide)
    refine ⟨(probe count (bucket / 16), Text.hexDigit (bucket % 16)),
      ⟨mem_probeKeys_iff.mpr ⟨_, known, rfl⟩, mem_lowerDigits_iff.mpr ⟨_, small, rfl⟩⟩, ?_⟩
    simp only [ofKey_entryKey_hexDigit someDigits method known small]
    exact Nat.div_add_mod bucket 16

/-- Digits are read in either case. -/
theorem ofKey_entryKey_toUpper (someDigits : 1 ≤ digitCount count) (method : HashMethod)
    (rest : String) {key : String} (isProbe : key ∈ probeKeys count) {digit : Char}
    (isDigit : digit ∈ lowerDigits) :
    ofKey method count (entryKey rest (key, digit.toUpper)) =
      ofKey method count (entryKey rest (key, digit)) := by
  obtain ⟨index, known, rfl⟩ := mem_probeKeys_iff.mp isProbe
  obtain ⟨value, small, rfl⟩ := mem_lowerDigits_iff.mp isDigit
  have upper : ∀ value < 16, (Text.hexDigit value).toUpper.toNat ≤ 0x7f ∧
      byteValue (UInt8.ofNat (Text.hexDigit value).toUpper.toNat) = value := by decide
  obtain ⟨ascii, valueEq⟩ := upper value small
  rw [ofKey_entryKey_hexDigit someDigits method known small,
    ofKey_entryKey someDigits method known (Text.utf8EncodeChar_of_ascii ascii), valueEq]

/-- Whatever stands behind a probe, the bucket can be spelled. -/
theorem ofKey_append_lt (method : HashMethod) {key : String} (isProbe : key ∈ probeKeys count)
    {name : String} (notEmpty : name ≠ "") :
    ofKey method count (key ++ name) < 16 ^ digitCount count := by
  obtain ⟨index, known, rfl⟩ := mem_probeKeys_iff.mp isProbe
  obtain ⟨first, rest, nameEq⟩ := utf8_ne_nil notEmpty
  obtain ⟨digits, spells, -⟩ := exists_spells_append known nameEq
  have length : digits.length = digitCount count := spells.choose_spec.2
  rw [spells.ofKey_eq method, ← length]
  exact Bucket.spelled_lt digits

theorem probeKeys_of_noDigits (noDigits : digitCount count = 0) : probeKeys count = ["@"] :=
  if_pos (by omega)

/-- Where no digit is spelled, all that starts with the sign goes to the first bucket. -/
theorem ofKey_sign_append (noDigits : digitCount count = 0) (method : HashMethod) (rest : String) :
    ofKey method count ("@" ++ rest) = 0 := by
  have spells : Spells count ("@" ++ rest) [] :=
    ⟨Text.utf8 rest, Text.utf8_append "@" rest, noDigits.symm⟩
  exact spells.ofKey_eq method

/-- Where buckets are spelled, each that can be is named by one probe and one digit, in either
case, and whatever an entry of a listing is called it is counted in one of them; where none is
spelled the bare sign is the only probe, and whatever follows it goes to the first bucket. -/
theorem probes_name_spelled_buckets (count : Nat) (method : HashMethod) (rest : String) :
    (probeKeys count).Nodup ∧
    (1 ≤ digitCount count →
      Set.BijOn (fun named => ofKey method count (entryKey rest named))
          {named | named.1 ∈ probeKeys count ∧ named.2 ∈ lowerDigits}
          (Set.Iio (16 ^ digitCount count)) ∧
        (∀ key ∈ probeKeys count, ∀ digit ∈ lowerDigits,
          ofKey method count (entryKey rest (key, digit.toUpper)) =
            ofKey method count (entryKey rest (key, digit))) ∧
        ∀ bucket < 16 ^ digitCount count, ∃! named : String × Char,
          (named.1 ∈ probeKeys count ∧ named.2 ∈ lowerDigits) ∧
            ofKey method count (entryKey rest named) = bucket) ∧
    (digitCount count = 0 →
      probeKeys count = ["@"] ∧
        ∀ key ∈ probeKeys count, ofKey method count (key ++ rest) = 0) ∧
    ∀ key ∈ probeKeys count, ∀ name ≠ "",
      ofKey method count (key ++ name) < 16 ^ digitCount count := by
  refine ⟨nodup_probeKeys count, ?_, ?_, fun key isProbe name => ofKey_append_lt method isProbe⟩
  · intro someDigits
    have bijOn := bijOn_entryKey someDigits method rest
    refine ⟨bijOn, fun key isProbe digit => ofKey_entryKey_toUpper someDigits method rest isProbe, ?_⟩
    intro bucket below
    obtain ⟨named, isNamed, named_eq⟩ := bijOn.surjOn below
    refine ⟨named, ⟨isNamed, named_eq⟩, ?_⟩
    rintro other ⟨otherIsNamed, other_eq⟩
    exact bijOn.injOn otherIsNamed isNamed (other_eq.trans named_eq.symm)
  · intro noDigits
    refine ⟨probeKeys_of_noDigits noDigits, ?_⟩
    intro key isProbe
    rw [probeKeys_of_noDigits noDigits, List.mem_singleton] at isProbe
    rw [isProbe, ofKey_sign_append noDigits method rest]

/-- Ten bits are two digits and a half, so a quarter of the buckets can be spelled. -/
theorem probes_name_spelled_buckets_of_ten_bits :
    1 ≤ digitCount 1024 ∧
      (∃! named : String × Char, (named.1 ∈ probeKeys 1024 ∧ named.2 ∈ lowerDigits) ∧
        ofKey .md5 1024 (entryKey "@?" named) = 0xff) ∧
      ofKey .md5 1024 ("@f" ++ "G/") < 256 := by
  obtain ⟨-, spelled, -, below⟩ := probes_name_spelled_buckets 1024 .md5 "@?"
  have someDigits : 1 ≤ digitCount 1024 := by decide
  have isProbe : "@f" ∈ probeKeys 1024 := by decide +kernel
  exact ⟨someDigits, (spelled someDigits).2.2 0xff (by decide), below "@f" isProbe "G/" (by decide)⟩

end Listing

end CacheRouting
