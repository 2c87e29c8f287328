import CacheRouting.Proofs.Document.Number

/-!
# Written values are read back

A written value is read back wherever a value may end.  Lists are read back item by
item, since an item starts with something that is neither blank nor a closing
bracket and ends before a comma or a bracket.
-/

namespace CacheRouting

namespace Document

namespace Toml

/-- Whether a character is not skipped between values and does not close a list. -/
def isSolid (character : Char) : Bool :=
  !isSpace character && character != '\n' && character != '#' && character != ']'

/-- Written characters that are read as a value of so much depth. -/
structure Reads (depth : Nat) (written : List Char) (value : Value) : Prop where
  starts : ∃ first more, written = first :: more ∧ isSolid first = true
  reads : ∀ rest, EndsValue rest → value? depth (written ++ rest) = some (value, rest)

theorem skipLines_of_isSolid {first : Char} (solid : isSolid first = true) (rest : List Char) :
    skipLines false (first :: rest) = first :: rest := by
  simp only [isSolid, Bool.and_eq_true, Bool.not_eq_true', bne_iff_ne] at solid
  obtain ⟨⟨⟨notSpace, notBreak⟩, notComment⟩, -⟩ := solid
  simp [skipLines, notSpace, notBreak, notComment]

theorem skipLines_bracket (rest : List Char) : skipLines false (']' :: rest) = ']' :: rest :=
  rfl

theorem skipSpace_of_isSolid {first : Char} (solid : isSolid first = true) (rest : List Char) :
    skipSpace (first :: rest) = first :: rest := by
  simp only [isSolid, Bool.and_eq_true, Bool.not_eq_true', bne_iff_ne] at solid
  simp [skipSpace, solid.1.1.1]

theorem endsValue_comma (rest : List Char) : EndsValue (',' :: rest) :=
  ⟨_, _, rfl, Or.inr (Or.inl rfl)⟩

theorem endsValue_bracket (rest : List Char) : EndsValue (']' :: rest) :=
  ⟨_, _, rfl, Or.inr (Or.inr rfl)⟩

theorem endsValue_break (rest : List Char) : EndsValue ('\n' :: rest) :=
  ⟨_, _, rfl, Or.inl rfl⟩

theorem exists_writeText_eq_cons (text : String) :
    ∃ quote more, writeText text = quote :: more ∧ (quote = '"' ∨ quote = '\'') := by
  unfold writeText
  cases TextForm.choose text.toList with
  | basicLine => exact ⟨_, _, rfl, Or.inl rfl⟩
  | literalLine => exact ⟨_, _, rfl, Or.inr rfl⟩
  | basicLines => exact ⟨_, _, rfl, Or.inl rfl⟩
  | literalLines => exact ⟨_, _, rfl, Or.inr rfl⟩

theorem reads_writeText (depth : Nat) (text : String) :
    Reads depth (writeText text) (.text text) := by
  obtain ⟨quote, more, writtenEq, isQuote⟩ := exists_writeText_eq_cons text
  constructor
  · refine ⟨quote, more, writtenEq, ?_⟩
    rcases isQuote with rfl | rfl <;> rfl
  · intro rest ends
    have read := quotedText?_writeText text ends
    rw [writtenEq, List.cons_append] at read ⊢
    rcases isQuote with rfl | rfl
    · rw [value?, read]
      simp
    · rw [value?, read]
      simp

theorem reads_boolean (depth : Nat) (value : Bool) :
    Reads depth (if value then "true".toList else "false".toList) (.boolean value) := by
  cases value with
  | false =>
      refine ⟨⟨'f', "alse".toList, rfl, rfl⟩, fun rest _ => ?_⟩
      change value? depth ('f' :: 'a' :: 'l' :: 's' :: 'e' :: rest) = _
      rw [value?]
  | true =>
      refine ⟨⟨'t', "rue".toList, rfl, rfl⟩, fun rest _ => ?_⟩
      change value? depth ('t' :: 'r' :: 'u' :: 'e' :: rest) = _
      rw [value?]

theorem reads_digitsOfNumber (depth : Nat) {number : Nat} (fits : number ≤ largestInteger) :
    Reads depth (Text.digitsOfNumber number) (.integer number) := by
  constructor
  · obtain ⟨first, more, digitsEq, isDigit, -⟩ := exists_digitsOfNumber_eq_cons number
    refine ⟨first, more, digitsEq, ?_⟩
    have notLetter : ∀ letter : Char, letter.isDigit = false → first ≠ letter := by
      rintro letter notDigit rfl
      rw [isDigit] at notDigit
      cases notDigit
    simp [isSolid, isSpace, notLetter _ (by decide : ' '.isDigit = false),
      notLetter _ (by decide : '\t'.isDigit = false), notLetter _ (by decide : '\n'.isDigit = false),
      notLetter _ (by decide : '#'.isDigit = false), notLetter _ (by decide : ']'.isDigit = false)]
  · rintro rest ⟨mark, more, rfl, isEnd⟩
    exact value?_digitsOfNumber isEnd depth fits

section Lists

variable {Item : Type} {depth : Nat} {write : Item → List Char} {valueOf : Item → Value}

/-- An item is read, and what stands behind it is reached. -/
theorem Reads.skipLines {written : List Char} {value : Value} (reads : Reads depth written value)
    (rest : List Char) : skipLines false (written ++ rest) = written ++ rest := by
  obtain ⟨first, more, rfl, solid⟩ := reads.starts
  exact skipLines_of_isSolid solid _

theorem Reads.ne_bracket {written : List Char} {value : Value} (reads : Reads depth written value)
    (rest more : List Char) : written ++ rest ≠ ']' :: more := by
  obtain ⟨first, rest, rfl, solid⟩ := reads.starts
  intro same
  cases (List.cons.inj same).1 ▸ solid

theorem listItems?_last {written : List Char} {value : Value} (reads : Reads depth written value)
    (limit : Nat) (rest : List Char) :
    listItems? (value? depth) (limit + 1) (written ++ ']' :: rest) = some ([value], rest) := by
  rw [listItems?, reads.skipLines]
  split
  · next more same => exact absurd same (reads.ne_bracket _ more)
  · simp only [reads.reads _ (endsValue_bracket rest), skipLines_bracket]

theorem listItems?_comma {written : List Char} {value : Value} (reads : Reads depth written value)
    {before rest : List Char} (limit : Nat)
    (skips : Toml.skipLines false before = written ++ ',' :: rest) :
    listItems? (value? depth) (limit + 1) before =
      (listItems? (value? depth) limit rest).map fun (values, rest) => (value :: values, rest) := by
  rw [listItems?, skips]
  split
  · next more same => exact absurd same (reads.ne_bracket _ more)
  · simp only [reads.reads _ (endsValue_comma rest), skipLines_of_isSolid (rfl : isSolid ',' = true)]

/-- The lines of a list, one for each item. -/
theorem listItems?_lines {items : List Item}
    (reads : ∀ item ∈ items, Reads depth (write item) (valueOf item)) (rest : List Char)
    {limit : Nat} (enough : items.length < limit) :
    listItems? (value? depth) limit ('\n' ::
      (items.flatMap (fun item => "    ".toList ++ write item ++ [',', '\n']) ++ ']' :: rest)) =
        some (items.map valueOf, rest) := by
  obtain ⟨left, rfl⟩ : ∃ left, limit = left + 1 := ⟨limit - 1, by omega⟩
  induction items generalizing left with
  | nil => rfl
  | cons item items ih =>
      obtain ⟨readsItem, readsRest⟩ := List.forall_mem_cons.mp reads
      obtain ⟨fewer, rfl⟩ : ∃ fewer, left = fewer + 1 :=
        ⟨left - 1, by simp only [List.length_cons] at enough; omega⟩
      have skips : Toml.skipLines false ('\n' ::
          ((item :: items).flatMap (fun item => "    ".toList ++ write item ++ [',', '\n']) ++
            ']' :: rest)) = write item ++ ',' :: '\n' ::
              (items.flatMap (fun item => "    ".toList ++ write item ++ [',', '\n']) ++
                ']' :: rest) := by
        rw [← readsItem.skipLines, List.flatMap_cons]
        simp [Toml.skipLines, isSpace]
      have fewerEnough : items.length < fewer + 1 := by
        simp only [List.length_cons] at enough
        omega
      rw [listItems?_comma readsItem _ skips, ih readsRest fewer fewerEnough]
      rfl

theorem length_le_lines (write : Item → List Char) (items : List Item) :
    items.length ≤
      (items.flatMap fun item => "    ".toList ++ write item ++ [',', '\n']).length := by
  induction items with
  | nil => exact Nat.zero_le _
  | cons item items ih =>
      rw [List.flatMap_cons, List.length_append, List.length_cons]
      simp only [List.length_append, List.length_cons, List.length_nil]
      omega

/-- A written list is read back if its items are. -/
theorem reads_writeList {items : List Item}
    (reads : ∀ item ∈ items, Reads depth (write item) (valueOf item)) :
    Reads (depth + 1) (writeList (items.map write)) (.list (items.map valueOf)) := by
  have opens : ∃ more, writeList (items.map write) = '[' :: more := by
    unfold writeList
    split <;> exact ⟨_, rfl⟩
  constructor
  · obtain ⟨more, writtenEq⟩ := opens
    exact ⟨'[', more, writtenEq, rfl⟩
  · intro rest _
    match items, reads with
    | [], _ =>
        change value? (depth + 1) ('[' :: ']' :: rest) = _
        rw [value?]
        rfl
    | [item], reads =>
        have writtenEq : writeList ([item].map write) ++ rest = '[' :: (write item ++ ']' :: rest) := by
          simp [writeList]
        rw [writtenEq, value?, List.length_cons, listItems?_last (reads item List.mem_cons_self)]
        rfl
    | first :: second :: items, reads =>
        have writtenEq : writeList ((first :: second :: items).map write) ++ rest =
            '[' :: '\n' :: ((first :: second :: items).flatMap
              (fun item => "    ".toList ++ write item ++ [',', '\n']) ++ ']' :: rest) := by
          simp [writeList, List.flatMap_map]
        have enough := length_le_lines write (first :: second :: items)
        rw [writtenEq, value?, listItems?_lines reads]
        · rfl
        · simp only [List.length_cons, List.length_append] at enough ⊢
          omega

end Lists

end Toml

end Document

end CacheRouting
