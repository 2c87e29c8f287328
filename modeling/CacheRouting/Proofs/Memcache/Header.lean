import CacheRouting.Memcache.Reply
import CacheRouting.Proofs.Text.Digits

/-!
# What the first line of a reply says

A line is read as words between single blanks.  A header has the word `VALUE`, a
key, and two numerals, and anything may stand behind a further blank.  Since no
key has a blank in it, a header announces the key that was asked for only if the
key stands there in one piece.
-/

namespace CacheRouting

namespace Memcache

theorem splitWords_cons_of_ne {character : Char} (notBlank : character ≠ ' ')
    {characters word : List Char} {words : List (List Char)}
    (wordsEq : splitWords characters = word :: words) :
    splitWords (character :: characters) = (character :: word) :: words := by
  rw [splitWords.eq_3 _ _ notBlank, wordsEq]

theorem splitWords_of_notMem {word : List Char} (noBlank : ' ' ∉ word) :
    splitWords word = [word] := by
  induction word with
  | nil => rfl
  | cons character word ih =>
      have notBlank := Ne.symm (List.ne_of_not_mem_cons noBlank)
      exact splitWords_cons_of_ne notBlank (ih (List.not_mem_of_not_mem_cons noBlank))

theorem splitWords_append_cons {word : List Char} (noBlank : ' ' ∉ word) (rest : List Char) :
    splitWords (word ++ ' ' :: rest) = word :: splitWords rest := by
  induction word with
  | nil => rfl
  | cons character word ih =>
      have notBlank := Ne.symm (List.ne_of_not_mem_cons noBlank)
      exact splitWords_cons_of_ne notBlank (ih (List.not_mem_of_not_mem_cons noBlank))

/-- The first word ends at the first blank, and the other words are those behind it. -/
theorem splitWords_eq_cons_iff {characters word : List Char} {words : List (List Char)} :
    splitWords characters = word :: words ↔
      ' ' ∉ word ∧ (characters = word ∧ words = [] ∨
        ∃ rest, characters = word ++ ' ' :: rest ∧ splitWords rest = words) := by
  constructor
  · intro wordsEq
    by_cases hasBlank : ' ' ∈ characters
    · obtain ⟨first, rest, rfl, noBlank⟩ := List.eq_append_cons_of_mem hasBlank
      rw [splitWords_append_cons noBlank] at wordsEq
      cases wordsEq
      exact ⟨noBlank, .inr ⟨rest, rfl, rfl⟩⟩
    · rw [splitWords_of_notMem hasBlank] at wordsEq
      cases wordsEq
      exact ⟨hasBlank, .inl ⟨rfl, rfl⟩⟩
  · rintro ⟨noBlank, ⟨rfl, rfl⟩ | ⟨rest, rfl, rfl⟩⟩
    · exact splitWords_of_notMem noBlank
    · exact splitWords_append_cons noBlank rest

/-- There is a further word only behind a blank. -/
theorem splitWords_eq_cons_cons_iff {characters word next : List Char}
    {words : List (List Char)} :
    splitWords characters = word :: next :: words ↔
      ' ' ∉ word ∧ ∃ rest, characters = word ++ ' ' :: rest ∧ splitWords rest = next :: words := by
  rw [splitWords_eq_cons_iff]
  simp

/-- The line announces a block of this length under these flags as the value of a key. -/
def Announces (key header : String) (flags length : Nat) : Prop :=
  flags < UInt32.size ∧ length < UInt64.size ∧
    ∃ flagsText lengthText further : List Char,
      Text.IsNumeral flagsText flags ∧ Text.IsNumeral lengthText length ∧
      (further = [] ∨ ∃ text, further = ' ' :: text) ∧
      header.toList =
        "VALUE ".toList ++ key.toList ++ ' ' :: flagsText ++ ' ' :: lengthText ++ further

theorem readHeader_eq_ok_iff_splitWords {key header : String} {flags length : Nat} :
    readHeader key header = .ok (flags, length) ↔
      ∃ flagsText lengthText words,
        splitWords header.toList =
          "VALUE".toList :: key.toList :: flagsText :: lengthText :: words ∧
        Text.readUnsigned? UInt32.size flagsText = some flags ∧
        Text.readUnsigned? UInt64.size lengthText = some length := by
  rw [readHeader]
  generalize splitWords header.toList = words
  constructor
  · intro accepted
    split at accepted
    next => cases accepted
    next isName =>
      split at accepted
      next => cases accepted
      next isKey =>
        split at accepted
        next => cases accepted
        next flagsRead flagsEq =>
          split at accepted
          next => cases accepted
          next lengthRead lengthEq =>
            obtain ⟨flagsText, flagsAt, flagsRead⟩ := Option.bind_eq_some_iff.mp flagsEq
            obtain ⟨lengthText, lengthAt, lengthRead⟩ := Option.bind_eq_some_iff.mp lengthEq
            cases accepted
            match words with
            | name :: keyWord :: third :: fourth :: others =>
                simp only [List.getElem?_cons_zero, List.getElem?_cons_succ, ne_eq,
                  Decidable.not_not, Option.some.injEq] at isName isKey flagsAt lengthAt
                subst isName isKey flagsAt lengthAt
                exact ⟨third, fourth, others, rfl, flagsRead, lengthRead⟩
  · rintro ⟨flagsText, lengthText, words, rfl, flagsRead, lengthRead⟩
    simp only [List.getElem?_cons_zero, List.getElem?_cons_succ, ne_eq, not_true_eq_false,
      if_false, Option.bind_some, flagsRead, lengthRead]

/-- The header of a value is accepted exactly if it announces the value of the key. -/
theorem readHeader_eq_ok_iff {key header : String} {flags length : Nat}
    (keyNoBlank : ' ' ∉ key.toList) :
    readHeader key header = .ok (flags, length) ↔ Announces key header flags length := by
  rw [readHeader_eq_ok_iff_splitWords]
  simp only [splitWords_eq_cons_cons_iff, Text.readUnsigned?_eq_some_iff]
  simp only [splitWords_eq_cons_iff]
  constructor
  · rintro ⟨flagsText, lengthText, words, ⟨-, afterName, headerEq, -, afterKey, rfl, -,
      afterFlags, rfl, -, isLast⟩, ⟨flagsNumeral, flagsLt⟩, lengthNumeral, lengthLt⟩
    rcases isLast with ⟨rfl, -⟩ | ⟨rest, rfl, -⟩
    · refine ⟨flagsLt, lengthLt, flagsText, _, [], flagsNumeral, lengthNumeral, .inl rfl, ?_⟩
      simp [headerEq]
    · refine ⟨flagsLt, lengthLt, flagsText, _, ' ' :: rest, flagsNumeral, lengthNumeral,
        .inr ⟨rest, rfl⟩, ?_⟩
      simp [headerEq]
  · rintro ⟨flagsLt, lengthLt, flagsText, lengthText, further, flagsNumeral, lengthNumeral,
      furtherEq, headerEq⟩
    obtain ⟨words, isLast⟩ : ∃ words,
        lengthText ++ further = lengthText ∧ words = [] ∨
          ∃ rest, lengthText ++ further = lengthText ++ ' ' :: rest ∧ splitWords rest = words := by
      rcases furtherEq with rfl | ⟨text, rfl⟩
      · exact ⟨[], .inl ⟨List.append_nil lengthText, rfl⟩⟩
      · exact ⟨splitWords text, .inr ⟨text, rfl, rfl⟩⟩
    have noBlank {characters : List Char} {number : Nat}
        (isNumeral : Text.IsNumeral characters number) : ' ' ∉ characters :=
      isNumeral.notMem (by decide) (by decide)
    refine ⟨flagsText, lengthText, words, ⟨by decide, _, ?_, keyNoBlank, _, rfl,
      noBlank flagsNumeral, _, rfl, noBlank lengthNumeral, isLast⟩, ⟨flagsNumeral, flagsLt⟩,
      lengthNumeral, lengthLt⟩
    simp [headerEq]

theorem readHeader_eq_error {key header : String} {error : Error}
    (failed : readHeader key header = .error error) : ∃ reason, error = .protocol reason := by
  rw [readHeader] at failed
  repeat' split at failed
  all_goals cases failed
  all_goals exact ⟨_, rfl⟩

def IsErrorLine (line reason : String) : Prop :=
  line = "ERROR" ∧ reason = "ERROR" ∨
    line = "SERVER_ERROR " ++ reason ∨ line = "CLIENT_ERROR " ++ reason

theorem eq_append_ofList_drop {name line : String} (prefixed : name.toList <+: line.toList) :
    line = name ++ String.ofList (line.toList.drop name.toList.length) := by
  obtain ⟨rest, lineEq⟩ := prefixed
  rw [← String.toList_inj, String.toList_append, ← lineEq, List.drop_left, String.toList_ofList]

theorem errorReason?_eq_some_iff {line reason : String} :
    errorReason? line = some reason ↔ IsErrorLine line reason := by
  rw [errorReason?, IsErrorLine]
  constructor
  · intro given
    split at given
    next isError =>
      cases given
      exact .inl ⟨isError, isError⟩
    next =>
      split at given
      next prefixed =>
        cases given
        rw [Bool.or_eq_true, List.isPrefixOf_iff_prefix, List.isPrefixOf_iff_prefix] at prefixed
        exact .inr (prefixed.imp eq_append_ofList_drop eq_append_ofList_drop)
      next => cases given
  · rintro (⟨rfl, rfl⟩ | rfl | rfl)
    · rfl
    · simp [← String.toList_inj]
    · simp [← String.toList_inj]

/-- A header of a value is not taken for another kind of line. -/
theorem Announces.errorReason?_eq_none {key header : String} {flags length : Nat}
    (announces : Announces key header flags length) :
    header ≠ "END" ∧ errorReason? header = none := by
  obtain ⟨-, -, flagsText, lengthText, further, -, -, -, headerEq⟩ := announces
  constructor
  · rintro rfl
    simp at headerEq
  · rw [Option.eq_none_iff_forall_ne_some]
    intro reason isError
    rcases errorReason?_eq_some_iff.mp isError with ⟨rfl, -⟩ | rfl | rfl <;> simp at headerEq

end Memcache

end CacheRouting
