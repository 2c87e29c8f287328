import CacheRouting.Text.Blank
import Mathlib.Data.List.TakeWhile

/-!
# Blanks around text

Removing the blanks at both ends of a text does not depend on blanks that are
added behind it, and it keeps whatever stands between characters that are not blank.
Nothing but blanks is removed.
-/

namespace CacheRouting

namespace Text

variable {characters before after : List Char}

def IsAllBlank (characters : List Char) : Prop :=
  ∀ character ∈ characters, isBlank character = true

instance (characters : List Char) : Decidable (IsAllBlank characters) :=
  List.decidableBAll (fun character => isBlank character = true) characters

def HasNoBlank (characters : List Char) : Prop :=
  ∀ character ∈ characters, isBlank character = false

instance (characters : List Char) : Decidable (HasNoBlank characters) :=
  List.decidableBAll (fun character => isBlank character = false) characters

theorem isAllBlank_nil : IsAllBlank [] :=
  List.forall_mem_nil _

theorem isAllBlank_append : IsAllBlank (before ++ after) ↔ IsAllBlank before ∧ IsAllBlank after :=
  List.forall_mem_append

theorem isAllBlank_cons {character : Char} :
    IsAllBlank (character :: characters) ↔ isBlank character = true ∧ IsAllBlank characters :=
  List.forall_mem_cons

theorem hasNoBlank_nil : HasNoBlank [] :=
  List.forall_mem_nil _

theorem hasNoBlank_append : HasNoBlank (before ++ after) ↔ HasNoBlank before ∧ HasNoBlank after :=
  List.forall_mem_append

theorem hasNoBlank_cons {character : Char} :
    HasNoBlank (character :: characters) ↔ isBlank character = false ∧ HasNoBlank characters :=
  List.forall_mem_cons

/-- Digits and letters are all among these characters. -/
theorem isBlank_of_visible {character : Char} (above : 0x20 < character.toNat)
    (below : character.toNat < 0x85) : isBlank character = false := by
  simp only [isBlank, Bool.or_eq_false_iff, Bool.and_eq_false_iff, decide_eq_false_iff_not,
    beq_eq_false_iff_ne]
  omega

theorem isBlank_of_isDigit {character : Char} (isDigit : character.isDigit = true) :
    isBlank character = false := by
  have bounds : 0x30 ≤ character.toNat ∧ character.toNat ≤ 0x39 := by
    simpa [Char.isDigit, UInt32.le_iff_toNat_le] using isDigit
  exact isBlank_of_visible (by omega) (by omega)

/-- Letters are not blank in either case. -/
theorem isBlank_toLower (character : Char) :
    isBlank character.toLower = isBlank character := by
  unfold Char.toLower
  split
  · next isUpper =>
    have bounds : 0x41 ≤ character.toNat ∧ character.toNat ≤ 0x5a := by
      simpa [UInt32.le_iff_toNat_le] using isUpper
    have lower : (character.val + ('a'.val - 'A'.val)).toNat = character.toNat + 0x20 := by
      rw [UInt32.toNat_add]
      exact Nat.mod_eq_of_lt (by change character.toNat + 0x20 < 2 ^ 32; omega)
    have isVisible : isBlank character = false := isBlank_of_visible (by omega) (by omega)
    rw [isVisible]
    apply isBlank_of_visible
    · change 0x20 < (character.val + ('a'.val - 'A'.val)).toNat
      omega
    · change (character.val + ('a'.val - 'A'.val)).toNat < 0x85
      omega
  · rfl

theorem hasNoBlank_of_all_isDigit (allDigits : characters.all Char.isDigit = true) :
    HasNoBlank characters :=
  fun character member => isBlank_of_isDigit (List.all_eq_true.mp allDigits character member)

theorem hasNoBlank_of_map_toLower (lowered : HasNoBlank (characters.map Char.toLower)) :
    HasNoBlank characters := by
  intro character member
  rw [← isBlank_toLower]
  exact lowered _ (List.mem_map_of_mem member)

theorem trimEnd_append_of_isAllBlank (characters : List Char) (allBlank : IsAllBlank after) :
    trimEnd (characters ++ after) = trimEnd characters := by
  have reversed : ∀ character ∈ after.reverse, isBlank character = true :=
    fun character member => allBlank character (List.mem_reverse.mp member)
  rw [trimEnd, List.reverse_append, List.dropWhile_append_of_pos reversed, trimEnd]

theorem trim_append_of_isAllBlank (characters : List Char) (allBlank : IsAllBlank after) :
    trim (characters ++ after) = trim characters := by
  rw [trim, List.dropWhile_append]
  split
  · next noneLeft =>
    rw [List.isEmpty_iff] at noneLeft
    rw [List.dropWhile_eq_nil_iff.mpr allBlank, trim, noneLeft]
  · rw [trimEnd_append_of_isAllBlank _ allBlank, trim]

theorem trim_eq_nil_of_isAllBlank (allBlank : IsAllBlank characters) : trim characters = [] :=
  trim_append_of_isAllBlank [] allBlank

theorem dropWhile_append_of_not_isAllBlank (someBefore : ¬ IsAllBlank before) :
    (before ++ after).dropWhile isBlank = before.dropWhile isBlank ++ after := by
  rw [List.dropWhile_append, if_neg]
  rw [List.isEmpty_iff, List.dropWhile_eq_nil_iff]
  exact someBefore

theorem trimEnd_append_of_not_isAllBlank (before : List Char) (someAfter : ¬ IsAllBlank after) :
    trimEnd (before ++ after) = before ++ trimEnd after := by
  have someReversed : ¬ IsAllBlank after.reverse := fun allBlank =>
    someAfter fun character member => allBlank character (List.mem_reverse.mpr member)
  rw [trimEnd, List.reverse_append, dropWhile_append_of_not_isAllBlank someReversed,
    List.reverse_append, List.reverse_reverse, trimEnd]

/-- What stands between characters that are not blank is kept. -/
theorem mem_trim_of_between (character : Char) (someBefore : ¬ IsAllBlank before)
    (someAfter : ¬ IsAllBlank after) : character ∈ trim (before ++ character :: after) := by
  have someBehind : ¬ IsAllBlank ([character] ++ after) := fun allBlank =>
    someAfter (isAllBlank_append.mp allBlank).2
  rw [trim, dropWhile_append_of_not_isAllBlank someBefore, ← List.singleton_append,
    trimEnd_append_of_not_isAllBlank _ someBehind, trimEnd_append_of_not_isAllBlank _ someAfter]
  simp

theorem dropWhile_of_hasNoBlank (noBlank : HasNoBlank characters) :
    characters.dropWhile isBlank = characters := by
  cases characters with
  | nil => rfl
  | cons first rest =>
      have notBlank : isBlank first = false := (hasNoBlank_cons.mp noBlank).1
      exact List.dropWhile_cons_of_neg (by simp [notBlank])

theorem trimEnd_of_hasNoBlank (noBlank : HasNoBlank characters) :
    trimEnd characters = characters := by
  have noneReversed : HasNoBlank characters.reverse :=
    fun character member => noBlank character (List.mem_reverse.mp member)
  rw [trimEnd, dropWhile_of_hasNoBlank noneReversed, List.reverse_reverse]

/-- Blanks around a text without blanks are removed, and nothing else. -/
theorem trim_append_append (blankBefore : IsAllBlank before) (noBlank : HasNoBlank characters)
    (blankAfter : IsAllBlank after) : trim (before ++ characters ++ after) = characters := by
  rw [trim_append_of_isAllBlank _ blankAfter, trim, List.dropWhile_append_of_pos blankBefore,
    dropWhile_of_hasNoBlank noBlank, trimEnd_of_hasNoBlank noBlank]

theorem isAllBlank_takeWhile (characters : List Char) :
    IsAllBlank (characters.takeWhile isBlank) :=
  List.all_eq_true.mp List.all_takeWhile

theorem exists_eq_append_trim (characters : List Char) :
    ∃ before after, characters = before ++ trim characters ++ after ∧
      IsAllBlank before ∧ IsAllBlank after := by
  let kept := characters.dropWhile isBlank
  have keptEq : kept = trimEnd kept ++ (kept.reverse.takeWhile isBlank).reverse := by
    rw [trimEnd, ← List.reverse_append, List.takeWhile_append_dropWhile, List.reverse_reverse]
  refine ⟨characters.takeWhile isBlank, (kept.reverse.takeWhile isBlank).reverse, ?_,
    isAllBlank_takeWhile characters, ?_⟩
  · rw [trim, List.append_assoc, ← keptEq, List.takeWhile_append_dropWhile]
  · intro character member
    exact isAllBlank_takeWhile kept.reverse character (List.mem_reverse.mp member)

end Text

end CacheRouting
