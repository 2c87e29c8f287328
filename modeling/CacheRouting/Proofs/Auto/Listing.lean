import CacheRouting.Config.Validate
import CacheRouting.Proofs.Auto.Probes
import CacheRouting.Proofs.Auto.Record

/-!
# Buckets of listed entries

An entry is taken from a line by two rules: the second byte of the line must be a
slash, and the name ends before the first blank.  They agree on the name, and the
probe with the name behind it spells its bucket, unless the line itself starts
with a blank.  Then the name is empty and the probe stands alone: it lacks its
last digit and is hashed like any other key.
-/

namespace CacheRouting

namespace Listing

open Bucket (digitCount byteValue spelled ofKey Spells)

/-- The name of an entry is what stands before the first blank of a line that has one byte
before a slash. -/
theorem exists_line_of_mem_parse {body : String} {record : Record} (isListed : record ∈ parse body) :
    ∃ first rest, first :: '/' :: rest ∈ splitAtMost '\n' pieceLimit body.toList ∧
      first.toNat < 0x80 ∧
      record.name.toList = (first :: '/' :: rest).takeWhile (· != ' ') := by
  obtain ⟨line, isLine, read⟩ := List.mem_filterMap.mp isListed
  obtain ⟨starts, flags, count, lineEq, noBlank, -⟩ := readRecord?_eq_some_iff.mp read
  obtain ⟨first, rest, rfl, ascii⟩ := startsWithDigitAndSlash_iff.mp starts
  refine ⟨first, rest, isLine, ascii, ?_⟩
  rw [lineEq, List.takeWhile_append_of_pos (forall_mem_bne noBlank), List.takeWhile_cons_of_neg (by decide),
    List.append_nil]

/-- A name is empty where its line starts with a blank; otherwise its second byte is a slash. -/
theorem name_cases {body : String} {record : Record} (isListed : record ∈ parse body) :
    (record.name = "" ∧ ∃ rest, ' ' :: '/' :: rest ∈ splitAtMost '\n' pieceLimit body.toList) ∨
      ∃ first rest, Text.utf8 record.name = first :: 0x2f :: rest := by
  obtain ⟨first, rest, isLine, ascii, nameEq⟩ := exists_line_of_mem_parse isListed
  by_cases isBlank : first = ' '
  · subst isBlank
    exact Or.inl ⟨String.toList_eq_nil_iff.mp nameEq, rest, isLine⟩
  · right
    have startsAsLine : record.name.toList = first :: '/' :: rest.takeWhile (· != ' ') := by
      simpa [List.takeWhile_cons, isBlank] using nameEq
    refine ⟨UInt8.ofNat first.toNat,
      (rest.takeWhile (· != ' ')).flatMap String.utf8EncodeChar, ?_⟩
    rw [Text.utf8, startsAsLine, List.flatMap_cons, List.flatMap_cons,
      Text.utf8EncodeChar_of_ascii (Nat.le_of_lt_succ ascii),
      Text.utf8EncodeChar_of_ascii (by decide)]
    rfl

/-- A probe alone is hashed if a digit is missing. -/
theorem ofKey_probe {count : Nat} (someDigits : 1 ≤ digitCount count) {key : String}
    (isProbe : key ∈ probeKeys count) (method : HashMethod) :
    ofKey method count key = Bucket.hashed method count (Text.utf8 key) := by
  rcases Bucket.ofBytes_cases method count (Text.utf8 key) with
    ⟨digits, rest, keyEq, length, -⟩ | isHashed
  · exact absurd ⟨rest, keyEq, length⟩ (not_spells_probe someDigits isProbe digits)
  · exact isHashed

/-- The bucket of an entry with a name is spelled by the digits of the probe and the first byte
of the name, which a slash follows, so it is the same for all hash methods.  An entry without a
name comes from a line that starts with a blank; where buckets are spelled its key, which is the
bare probe, is hashed. -/
theorem named_entries_are_spelled {count : Nat} {key : String} (isProbe : key ∈ probeKeys count)
    {body : String} {record : Record} (isListed : record ∈ parse body) :
    (record.name ≠ "" →
      ∃ first rest, Text.utf8 record.name = first :: 0x2f :: rest ∧
        ∃ digits, Spells count (key ++ record.name) digits ∧
          (∀ method, ofKey method count (key ++ record.name) = spelled digits) ∧
          (1 ≤ digitCount count →
            spelled digits = 16 * spelled (Text.utf8 key).tail + byteValue first)) ∧
    (record.name = "" →
      (∃ rest, ' ' :: '/' :: rest ∈ splitAtMost '\n' pieceLimit body.toList) ∧
        (digitCount count = 0 → ∀ method, ofKey method count (key ++ record.name) = 0) ∧
        (1 ≤ digitCount count → ∀ method,
          ofKey method count (key ++ record.name) =
            Bucket.hashed method count (Text.utf8 key))) := by
  constructor
  · intro hasName
    obtain ⟨noName, -⟩ | ⟨first, rest, nameEq⟩ := name_cases isListed
    · exact absurd noName hasName
    · obtain ⟨index, known, rfl⟩ := mem_probeKeys_iff.mp isProbe
      obtain ⟨written, probeEq, -, indexEq⟩ := exists_utf8_probe known
      obtain ⟨digits, spells, value⟩ := exists_spells_append known nameEq
      refine ⟨first, rest, nameEq, digits, spells, spells.ofKey_eq, ?_⟩
      rwa [probeEq, List.tail_cons, indexEq]
  · intro noName
    obtain ⟨-, startsBlank⟩ | ⟨first, rest, nameEq⟩ := name_cases isListed
    · rw [noName, String.append_empty]
      refine ⟨startsBlank, ?_, fun someDigits => ofKey_probe someDigits isProbe⟩
      intro noDigits method
      rw [probeKeys_of_noDigits noDigits, List.mem_singleton] at isProbe
      rw [isProbe]
      exact ofKey_sign_append noDigits method ""
    · rw [noName] at nameEq
      cases nameEq

/-- A digit counts in either case, and what follows the slash does not matter. -/
theorem named_entries_are_spelled_in_either_case :
    ⟨"B/c", 16⟩ ∈ parse "x\nB/c 0 16" ∧ "@3" ∈ probeKeys 256 ∧
      ∀ method, ofKey method 256 ("@3" ++ "B/c") = 0x3b := by
  have isListed : (⟨"B/c", 16⟩ : Record) ∈ parse "x\nB/c 0 16" := by decide +kernel
  have isProbe : "@3" ∈ probeKeys 256 := by decide +kernel
  obtain ⟨first, rest, nameEq, digits, -, sameBucket, value⟩ :=
    (named_entries_are_spelled isProbe isListed).1 (by decide)
  obtain ⟨rfl, -⟩ := List.cons.inj (nameEq.symm.trans (by decide +kernel :
    Text.utf8 "B/c" = [0x42, 0x2f, 0x63]))
  refine ⟨isListed, isProbe, fun method => ?_⟩
  rw [sameBucket method, value (by decide)]
  decide +kernel

/-- A line that starts with a blank lists an entry without a name, whose bucket depends on how
keys are hashed. -/
theorem entry_without_name_is_hashed :
    Config.acceptsBucketCount 16 = true ∧ "@" ∈ probeKeys 16 ∧ ⟨"", 5⟩ ∈ parse " / 5" ∧
      ofKey .fnv1a 16 ("@" ++ "") ≠ ofKey .crc32 16 ("@" ++ "") := by
  decide +kernel

end Listing

end CacheRouting
