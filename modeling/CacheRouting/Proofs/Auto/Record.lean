import CacheRouting.Auto.Listing
import Mathlib.Data.List.TakeWhile

/-!
# Records of a listing

A piece of a listing is a record exactly if it has one byte before a slash and three
fields, of which the first two are without blanks and the third is a count.  The
first field is the name, and whatever is behind the second blank belongs to the count.
-/

namespace CacheRouting

namespace Listing

variable {separator : Char} {characters piece : List Char}

theorem forall_mem_bne (absent : separator ∉ characters) :
    ∀ character ∈ characters, (character != separator) = true := by
  intro character member
  simpa using ne_of_mem_of_not_mem member absent

theorem splitAtMost_of_notMem (limit : Nat) (absent : separator ∉ characters) :
    splitAtMost separator (limit + 1) characters = [characters] := by
  cases limit with
  | zero => rfl
  | succ limit =>
      have noneLeft : characters.dropWhile (· != separator) = [] :=
        List.dropWhile_eq_nil_iff.mpr (forall_mem_bne absent)
      rw [splitAtMost, noneLeft]

theorem splitAtMost_append_cons (limit : Nat) (absent : separator ∉ piece) (rest : List Char) :
    splitAtMost separator (limit + 2) (piece ++ separator :: rest) =
      piece :: splitAtMost separator (limit + 1) rest := by
  have differs := forall_mem_bne absent
  rw [splitAtMost, List.dropWhile_append_of_pos differs, List.takeWhile_append_of_pos differs,
    List.dropWhile_cons_of_neg (by simp), List.takeWhile_cons_of_neg (by simp), List.append_nil]

theorem splitAtMost_three_iff {first second third : List Char} :
    splitAtMost separator 3 characters = [first, second, third] ↔
      characters = first ++ separator :: (second ++ separator :: third) ∧
        separator ∉ first ∧ separator ∉ second := by
  constructor
  · intro pieces
    by_cases once : separator ∈ characters
    · obtain ⟨before, rest, rfl, notBefore⟩ := List.eq_append_cons_of_mem once
      rw [splitAtMost_append_cons 1 notBefore] at pieces
      obtain ⟨rfl, pieces⟩ := List.cons.inj pieces
      by_cases twice : separator ∈ rest
      · obtain ⟨between, behind, rfl, notBetween⟩ := List.eq_append_cons_of_mem twice
        rw [splitAtMost_append_cons 0 notBetween] at pieces
        cases pieces
        exact ⟨rfl, notBefore, notBetween⟩
      · rw [splitAtMost_of_notMem 1 twice] at pieces
        cases pieces
    · rw [splitAtMost_of_notMem 2 once] at pieces
      cases pieces
  · rintro ⟨rfl, notFirst, notSecond⟩
    rw [splitAtMost_append_cons 1 notFirst, splitAtMost_append_cons 0 notSecond]
    rfl

/-- The text, without the blanks around it, is a finite number that is not negative. -/
def IsCount (characters : List Char) (value : Float) : Prop :=
  ∃ number, NumberText.read? (Text.trim characters) = some number ∧ number.toFloat = value ∧
    value.isFinite = true ∧ 0 ≤ value

theorem readCount?_eq_some_iff {value : Float} :
    readCount? characters = some value ↔ IsCount characters value := by
  unfold readCount? IsCount
  cases NumberText.read? (Text.trim characters) with
  | none => simp
  | some number =>
      simp only [Option.some.injEq, exists_eq_left', Option.ite_none_right_eq_some, Bool.and_eq_true,
        decide_eq_true_eq]
      constructor
      · rintro ⟨isCount, rfl⟩
        exact ⟨rfl, isCount⟩
      · rintro ⟨rfl, isCount⟩
        exact ⟨isCount, rfl⟩

theorem startsWithDigitAndSlash_iff :
    startsWithDigitAndSlash piece = true ↔
      ∃ first rest, piece = first :: '/' :: rest ∧ first.toNat < 0x80 := by
  unfold startsWithDigitAndSlash
  split
  · simp
  · next noSlash =>
    simp only [Bool.false_eq_true, false_iff, not_exists, not_and]
    intro first rest pieceEq
    exact absurd pieceEq (noSlash first rest)

/-- A piece with three fields is a record as far as its third field is a count. -/
theorem readRecord?_of_fields (starts : startsWithDigitAndSlash piece = true)
    {name flags count : List Char} (pieceEq : piece = name ++ ' ' :: (flags ++ ' ' :: count))
    (notName : ' ' ∉ name) (notFlags : ' ' ∉ flags) :
    readRecord? piece = (readCount? count).map fun value => ⟨String.ofList name, value⟩ := by
  rw [readRecord?, if_pos starts, splitAtMost_three_iff.mpr ⟨pieceEq, notName, notFlags⟩]

theorem readRecord?_eq_some_iff {record : Record} :
    readRecord? piece = some record ↔
      startsWithDigitAndSlash piece = true ∧ ∃ flags count,
        piece = record.name.toList ++ ' ' :: (flags ++ ' ' :: count) ∧
          ' ' ∉ record.name.toList ∧ ' ' ∉ flags ∧ IsCount count record.count := by
  constructor
  · intro read
    unfold readRecord? at read
    split at read
    · next starts =>
      split at read
      · next name flags count pieces =>
        obtain ⟨value, isCount, rfl⟩ := Option.map_eq_some_iff.mp read
        obtain ⟨pieceEq, notName, notFlags⟩ := splitAtMost_three_iff.mp pieces
        dsimp only
        rw [String.toList_ofList]
        exact ⟨starts, flags, count, pieceEq, notName, notFlags, readCount?_eq_some_iff.mp isCount⟩
      · cases read
    · cases read
  · rintro ⟨starts, flags, count, pieceEq, notName, notFlags, isCount⟩
    rw [readRecord?_of_fields starts pieceEq notName notFlags, readCount?_eq_some_iff.mpr isCount,
      Option.map_some, String.ofList_toList]

end Listing

end CacheRouting
