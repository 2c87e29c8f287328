import CacheRouting.Proofs.Document.Text
import CacheRouting.Proofs.Text.Digits

/-!
# Line breaks of written documents

The only breaks that are written are line feeds.  A carriage return within text is
written as an escape, so that no reader takes it for a part of a break.
-/

namespace CacheRouting

namespace Document

namespace Toml

theorem return_not_mem_escapeCommon (character : Char) : '\r' ∉ escapeCommon character := by
  unfold escapeCommon
  split
  · decide
  · decide
  · decide
  · decide
  · decide
  · split
    · next coded =>
      have spelled : ∀ code < 128, '\r' ∉ (Text.hexDigits 4 code).map Char.toUpper := by
        decide +kernel
      simpa [unicodeEscape] using spelled _ (toNat_lt_of_isCoded coded)
    · next notCoded =>
      rw [List.mem_singleton]
      rintro rfl
      exact notCoded rfl

theorem return_not_mem_escapeOnLine (character : Char) : '\r' ∉ escapeOnLine character := by
  unfold escapeOnLine
  split
  · decide
  · decide
  · exact return_not_mem_escapeCommon character

theorem return_not_mem_escapeLines (text : List Char) (quotes : Nat) :
    '\r' ∉ escapeLines quotes text := by
  induction text generalizing quotes with
  | nil => simp [escapeLines]
  | cons character text ih =>
      by_cases isQuote : character = '"'
      · subst isQuote
        rw [escapeLines]
        split <;> simp [ih]
      · rw [escapeLines_of_ne isQuote, List.mem_append, not_or]
        exact ⟨return_not_mem_escapeCommon character, ih 0⟩

theorem TextForm.return_not_mem_write (form : TextForm) {text : List Char}
    (holds : form.Holds text) : '\r' ∉ form.write text := by
  have noBreak : '\r' ∉ leadingBreak text := by
    unfold leadingBreak
    split <;> decide
  cases form with
  | basicLine =>
      have noneEscaped : '\r' ∉ text.flatMap escapeOnLine := by
        rw [List.mem_flatMap]
        rintro ⟨character, -, member⟩
        exact return_not_mem_escapeOnLine character member
      simpa [TextForm.write] using noneEscaped
  | literalLine =>
      have noneLiteral : '\r' ∉ text := by
        intro member
        cases holds '\r' member
      simpa [TextForm.write] using noneLiteral
  | basicLines =>
      simp [TextForm.write, noBreak, return_not_mem_escapeLines]
  | literalLines =>
      have noneLiteral : '\r' ∉ text := by
        intro member
        cases holds.1 '\r' member
      simp [TextForm.write, noBreak, noneLiteral]

theorem return_not_mem_writeText (text : String) : '\r' ∉ writeText text :=
  TextForm.return_not_mem_write _ (TextForm.holds_choose text.toList)

theorem return_not_mem_writeKey (name : String) : '\r' ∉ writeKey name := by
  unfold writeKey
  dsimp only
  split
  · next allBare =>
    intro member
    simp only [Bool.and_eq_true, List.all_eq_true] at allBare
    cases allBare.2 '\r' member
  · split
    · exact TextForm.return_not_mem_write .basicLine trivial
    · split
      · next unescaped =>
        intro member
        simp only [Bool.and_eq_true, Bool.not_eq_true', List.any_eq_false] at unescaped
        have inText : '\r' ∈ name.toList := by simpa [TextForm.write] using member
        exact unescaped.1 '\r' inText rfl
      · exact TextForm.return_not_mem_write .basicLine trivial

theorem return_not_mem_digitsOfNumber (number : Nat) : '\r' ∉ Text.digitsOfNumber number := by
  intro member
  cases Nat.isDigit_of_mem_toDigits (b := 10) (by decide) (by decide) member

theorem return_not_mem_writeList {items : List (List Char)}
    (noneInItems : ∀ item ∈ items, '\r' ∉ item) : '\r' ∉ writeList items := by
  unfold writeList
  split
  · decide
  · simpa using noneInItems
  · have noneInLines : '\r' ∉
        items.flatMap fun item => "    ".toList ++ item ++ [',', '\n'] := by
      rw [List.mem_flatMap]
      rintro ⟨item, isItem, member⟩
      simp [noneInItems item isItem] at member
    simpa using noneInLines

theorem return_not_mem_writeField {key written : List Char} (noneInKey : '\r' ∉ key)
    (noneInValue : '\r' ∉ written) : '\r' ∉ writeField key written := by
  simp [writeField, noneInKey, noneInValue]

end Toml

end Document

end CacheRouting
