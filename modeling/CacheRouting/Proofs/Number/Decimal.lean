import CacheRouting.Number.Decimal
import CacheRouting.Proofs.Text.Blank

/-!
# Numbers have no blanks

A text is read as a number only if every character of it belongs to the number: a
sign, a digit, a point, the mark of a power of ten or a letter of the words for
infinity and for the undefined value.  None of these is blank.
-/

namespace CacheRouting

open Text

namespace NumberText

variable {characters : List Char}

theorem hasNoBlank_of_splitSign (unsigned : HasNoBlank (splitSign characters).2) :
    HasNoBlank characters := by
  unfold splitSign at unsigned
  split at unsigned
  · exact hasNoBlank_cons.mpr ⟨rfl, unsigned⟩
  · exact hasNoBlank_cons.mpr ⟨rfl, unsigned⟩
  · exact unsigned

theorem hasNoBlank_of_readExponent? {exponent : Int}
    (read : readExponent? characters = some exponent) : HasNoBlank characters := by
  unfold readExponent? at read
  split at read
  · exact hasNoBlank_nil
  · next mark rest =>
    split at read
    · next isMark =>
      dsimp only at read
      split at read
      · next digits =>
        have isVisible : isBlank mark = false := by
          rcases isMark with rfl | rfl <;> rfl
        exact hasNoBlank_cons.mpr
          ⟨isVisible, hasNoBlank_of_splitSign (hasNoBlank_of_all_isDigit digits.2)⟩
      · cases read
    · cases read

theorem hasNoBlank_takeWhile_isDigit (characters : List Char) :
    HasNoBlank (characters.takeWhile Char.isDigit) :=
  fun _ member => isBlank_of_isDigit (List.mem_takeWhile_imp member)

theorem hasNoBlank_of_dropWhile_isDigit (rest : HasNoBlank (characters.dropWhile Char.isDigit)) :
    HasNoBlank characters := by
  rw [← List.takeWhile_append_dropWhile (p := Char.isDigit) (l := characters)]
  exact hasNoBlank_append.mpr ⟨hasNoBlank_takeWhile_isDigit characters, rest⟩

theorem hasNoBlank_of_readDecimal? {negative : Bool} {decimal : Decimal}
    (read : readDecimal? negative characters = some decimal) : HasNoBlank characters := by
  apply hasNoBlank_of_dropWhile_isDigit
  unfold readDecimal? at read
  dsimp only at read
  -- behind the digits stands a point with more digits or at once the power of ten
  split at read
  · next fraction isPoint =>
    rw [isPoint]
    split at read
    · cases read
    · obtain ⟨exponent, isExponent, -⟩ := Option.bind_eq_some_iff.mp read
      exact hasNoBlank_cons.mpr
        ⟨rfl, hasNoBlank_of_dropWhile_isDigit (hasNoBlank_of_readExponent? isExponent)⟩
  · split at read
    · cases read
    · obtain ⟨exponent, isExponent, -⟩ := Option.bind_eq_some_iff.mp read
      exact hasNoBlank_of_readExponent? isExponent

/-- A text that is read as a number has no blanks. -/
theorem hasNoBlank_of_read? {number : NumberText} (read : read? characters = some number) :
    HasNoBlank characters := by
  apply hasNoBlank_of_splitSign
  unfold read? at read
  dsimp only at read
  split at read
  · next isInfinite =>
    apply hasNoBlank_of_map_toLower
    rcases isInfinite with word | word <;> rw [word] <;> decide +kernel
  · split at read
    · next isUndefined =>
      apply hasNoBlank_of_map_toLower
      rw [isUndefined]
      decide +kernel
    · obtain ⟨decimal, isDecimal, -⟩ := Option.map_eq_some_iff.mp read
      exact hasNoBlank_of_readDecimal? isDecimal

end NumberText

end CacheRouting
