import CacheRouting.Proofs.Document.Table
import CacheRouting.Proofs.Document.Value

/-!
# Written lines are read back

A written header opens its table and a written field defines its key.  A document
made of such lines is read to its end, since each line has at least one character
and the reader may read as many lines as there are characters.
-/

namespace CacheRouting

namespace Document

namespace Toml

/-- What may follow a key: a blank, a dot or a closing bracket. -/
def EndsKey (rest : List Char) : Prop :=
  ∃ mark more, rest = mark :: more ∧ (mark = ' ' ∨ mark = '.' ∨ mark = ']')

theorem endsKey_space (rest : List Char) : EndsKey (' ' :: rest) :=
  ⟨_, _, rfl, Or.inl rfl⟩

theorem endsKey_dot (rest : List Char) : EndsKey ('.' :: rest) :=
  ⟨_, _, rfl, Or.inr (Or.inl rfl)⟩

theorem endsKey_bracket (rest : List Char) : EndsKey (']' :: rest) :=
  ⟨_, _, rfl, Or.inr (Or.inr rfl)⟩

theorem EndsKey.simpleKey?_writeKey {rest : List Char} (ends : EndsKey rest) (name : String) :
    simpleKey? (writeKey name ++ rest) = some (name, rest) := by
  apply Toml.simpleKey?_writeKey
  rintro first more rfl
  obtain ⟨mark, more, same, isMark⟩ := ends
  obtain ⟨rfl, -⟩ := List.cons.inj same
  rcases isMark with rfl | rfl | rfl <;> rfl

theorem exists_writeKey_eq_cons (name : String) :
    ∃ first more, writeKey name = first :: more ∧ isSolid first = true ∧ first ≠ '[' := by
  unfold writeKey
  dsimp only
  split
  · next allBare =>
    simp only [Bool.and_eq_true, Bool.not_eq_true', List.isEmpty_eq_false_iff, List.all_eq_true]
      at allBare
    obtain ⟨notEmpty, bare⟩ := allBare
    obtain ⟨first, more, textEq⟩ := List.exists_cons_of_ne_nil notEmpty
    have isBare : isBare first = true := bare first (textEq ▸ List.mem_cons_self)
    have other : ∀ character, Toml.isBare character = false → first ≠ character := by
      rintro character notBare rfl
      rw [isBare] at notBare
      cases notBare
    refine ⟨first, more, textEq, ?_, other '[' rfl⟩
    simp [isSolid, isSpace, other ' ' rfl, other '\t' rfl, other '\n' rfl, other '#' rfl,
      other ']' rfl]
  · split
    · exact ⟨'"', _, rfl, rfl, by decide⟩
    · split
      · exact ⟨'\'', _, rfl, rfl, by decide⟩
      · exact ⟨'"', _, rfl, rfl, by decide⟩

theorem skipSpace_writeKey (name : String) (rest : List Char) :
    skipSpace (writeKey name ++ rest) = writeKey name ++ rest := by
  obtain ⟨first, more, writtenEq, solid, -⟩ := exists_writeKey_eq_cons name
  rw [writtenEq]
  exact skipSpace_of_isSolid solid _

/-- Written keys with dots between them are read back before a closing bracket. -/
theorem dottedKey?_intercalate {names : List String} (notEmpty : names ≠ []) (rest : List Char)
    {limit : Nat} (enough : names.length ≤ limit) :
    dottedKey? limit (['.'].intercalate (names.map writeKey) ++ ']' :: rest) =
      some (names, ']' :: rest) := by
  obtain ⟨left, rfl⟩ : ∃ left, limit = left + 1 :=
    ⟨limit - 1, by have := List.length_pos_iff.mpr notEmpty; omega⟩
  induction names generalizing left with
  | nil => exact absurd rfl notEmpty
  | cons name names ih =>
      cases names with
      | nil =>
          have written : ['.'].intercalate ([name].map writeKey) ++ ']' :: rest =
              writeKey name ++ ']' :: rest := by
            simp [List.intercalate]
          rw [written, dottedKey?, skipSpace_writeKey, (endsKey_bracket rest).simpleKey?_writeKey]
          rfl
      | cons second names =>
          have written : ['.'].intercalate ((name :: second :: names).map writeKey) ++ ']' :: rest =
              writeKey name ++ '.' :: (['.'].intercalate ((second :: names).map writeKey) ++
                ']' :: rest) := by
            simp [List.intercalate]
          obtain ⟨fewer, rfl⟩ : ∃ fewer, left = fewer + 1 :=
            ⟨left - 1, by simp only [List.length_cons] at enough; omega⟩
          have later := ih (by simp) fewer (by simpa using enough)
          rw [written, dottedKey?, skipSpace_writeKey, (endsKey_dot _).simpleKey?_writeKey]
          have dot : skipSpace ('.' :: (['.'].intercalate ((second :: names).map writeKey) ++
              ']' :: rest)) = '.' :: (['.'].intercalate ((second :: names).map writeKey) ++
                ']' :: rest) := rfl
          simp only [dot, later]

theorem splitLast?_append (path : List String) (name : String) :
    splitLast? (path ++ [name]) = some (path, name) := by
  induction path with
  | nil => rfl
  | cons first path ih =>
      rw [List.cons_append, splitLast?, ih]
      · rfl
      · simp

theorem exists_intercalate_eq_cons {names : List String} (notEmpty : names ≠ [])
    (rest : List Char) :
    ∃ first more, ['.'].intercalate (names.map writeKey) ++ rest = first :: more ∧ first ≠ '[' := by
  cases names with
  | nil => exact absurd rfl notEmpty
  | cons name names =>
      obtain ⟨first, more, writtenEq, -, notBracket⟩ := exists_writeKey_eq_cons name
      cases names with
      | nil => exact ⟨first, more ++ rest, by simp [List.intercalate, writtenEq], notBracket⟩
      | cons second names =>
          refine ⟨first, more ++ '.' :: (['.'].intercalate ((second :: names).map writeKey) ++ rest),
            ?_, notBracket⟩
          simp [List.intercalate, writtenEq]

theorem dottedKey?_writeField (name : String) (written rest : List Char) :
    dottedKey? (nestingLimit - 1) (writeField (writeKey name) written ++ rest) =
      some ([name], '=' :: ' ' :: (written ++ '\n' :: rest)) := by
  have splitEq : writeField (writeKey name) written ++ rest =
      writeKey name ++ ' ' :: '=' :: ' ' :: (written ++ '\n' :: rest) := by
    simp [writeField]
  rw [splitEq, nestingLimit, dottedKey?, skipSpace_writeKey, (endsKey_space _).simpleKey?_writeKey]
  rfl

theorem line?_writeField {written : List Char} {value : Value}
    (reads : Reads (nestingLimit - 1) written value) (name : String) (progress : Progress)
    (rest : List Char) :
    line? progress (writeField (writeKey name) written ++ rest) =
      (progress.fields.defineIn? progress.opened [] name value).map fun fields =>
        (⟨fields, progress.opened⟩, rest) := by
  have read : keyValue? (value? (nestingLimit - 1)) (writeField (writeKey name) written ++ rest) =
      some (([name], value), '\n' :: rest) := by
    obtain ⟨first, more, writtenEq, solid⟩ := reads.starts
    have skipped : skipSpace (' ' :: (written ++ '\n' :: rest)) = written ++ '\n' :: rest := by
      have solidEq : skipSpace (written ++ '\n' :: rest) = written ++ '\n' :: rest := by
        rw [writtenEq]
        exact skipSpace_of_isSolid solid _
      exact solidEq
    rw [keyValue?, dottedKey?_writeField]
    simp only [skipped, reads.reads _ (endsValue_break rest)]
    rfl
  obtain ⟨first, more, keyEq, solid, notBracket⟩ := exists_writeKey_eq_cons name
  have notComment : first ≠ '#' := by
    rintro rfl
    cases solid
  have splitEq : writeField (writeKey name) written ++ rest =
      first :: (more ++ ([' ', '=', ' '] ++ written ++ ['\n'] ++ rest)) := by
    simp [writeField, keyEq]
  rw [splitEq] at read ⊢
  rw [line?]
  · simp only [read, splitLast?]
    rfl
  · intro tail same
    exact notComment (List.cons.inj same).1
  · intro tail same
    exact notBracket (List.cons.inj same).1
  · intro tail same
    exact notBracket (List.cons.inj same).1

/-- A line with the name of a table in brackets opens the table. -/
theorem line?_writeHeader {path : List String} {name : String}
    (enough : path.length < nestingLimit - 1) (progress : Progress) (rest : List Char) :
    line? progress (writeHeader ((path ++ [name]).map writeKey) ++ rest) =
      (progress.fields.openTable? path name).map fun fields => (⟨fields, path ++ [name]⟩, rest) := by
  have lastEq := splitLast?_append path name
  have splitEq : writeHeader ((path ++ [name]).map writeKey) ++ rest =
      '[' :: (['.'].intercalate ((path ++ [name]).map writeKey) ++ ']' :: '\n' :: rest) := by
    simp [writeHeader]
  have notEmpty : path ++ [name] ≠ [] := by simp
  have enoughParts : (path ++ [name]).length ≤ nestingLimit - 1 := by
    rw [List.length_append, List.length_singleton]
    omega
  have read := dottedKey?_intercalate notEmpty ('\n' :: rest) enoughParts
  obtain ⟨first, more, writtenEq, notBracket⟩ :=
    exists_intercalate_eq_cons notEmpty (']' :: '\n' :: rest)
  rw [splitEq]
  rw [writtenEq] at read ⊢
  rw [line?]
  · simp only [read, lastEq]
    rfl
  · intro tail same
    exact notBracket (List.cons.inj same).1

theorem lines?_mono {limit larger : Nat} {progress : Progress} {characters : List Char}
    {fields : Fields} (read : lines? limit progress characters = some fields)
    (atMost : limit ≤ larger) : lines? larger progress characters = some fields := by
  induction limit generalizing larger progress characters with
  | zero => cases read
  | succ limit ih =>
      obtain ⟨more, rfl⟩ : ∃ more, larger = more + 1 := ⟨larger - 1, by omega⟩
      have fewer : limit ≤ more := by omega
      rw [lines?] at read ⊢
      split at read
      · exact read
      · exact ih read fewer
      · split at read
        · exact ih read fewer
        · cases read

/-- Reading some lines leads from one state of the reader to another. -/
def Goes (written : List Char) (before after : Progress) : Prop :=
  ∀ limit rest fields, lines? limit after rest = some fields →
    lines? (limit + written.length) before (written ++ rest) = some fields

section Goes

variable {written more : List Char} {before between after : Progress}

theorem goes_nil (progress : Progress) : Goes [] progress progress :=
  fun _ _ _ read => read

theorem Goes.append (first : Goes written before between) (second : Goes more between after) :
    Goes (written ++ more) before after := by
  intro limit rest fields read
  have readAll := first _ _ _ (second limit rest fields read)
  rw [List.length_append, List.append_assoc, Nat.add_comm written.length, ← Nat.add_assoc]
  exact readAll

theorem goes_break (progress : Progress) : Goes ['\n'] progress progress := by
  intro limit rest fields read
  exact read

theorem goes_of_line? (starts : ∃ first more, written = first :: more ∧ isSolid first = true)
    (step : ∀ rest, line? before (written ++ rest) = some (after, rest)) :
    Goes written before after := by
  intro limit rest fields read
  obtain ⟨first, more, writtenEq, solid⟩ := starts
  have skipped : skipSpace (written ++ rest) = written ++ rest := by
    rw [writtenEq]
    exact skipSpace_of_isSolid solid _
  have notBreak : first ≠ '\n' := by
    rintro rfl
    cases solid
  have lengthEq : limit + written.length = limit + more.length + 1 := by
    rw [writtenEq, List.length_cons, Nat.add_assoc]
  rw [lengthEq, lines?, skipped]
  split
  · next isEmpty => simp [writtenEq] at isEmpty
  · next tail isBreak =>
    rw [writtenEq] at isBreak
    exact absurd (List.cons.inj isBreak).1 notBreak
  · simp only [step]
    exact lines?_mono read (Nat.le_add_right ..)

theorem goes_writeField {value : Value} (reads : Reads (nestingLimit - 1) written value)
    {name : String} {opened : List String} {fields next : Fields}
    (defines : fields.defineIn? opened [] name value = some next) :
    Goes (writeField (writeKey name) written) ⟨fields, opened⟩ ⟨next, opened⟩ := by
  apply goes_of_line?
  · obtain ⟨first, more, keyEq, solid, -⟩ := exists_writeKey_eq_cons name
    exact ⟨first, _, by rw [writeField, keyEq]; rfl, solid⟩
  · intro rest
    rw [line?_writeField reads, defines]
    rfl

theorem goes_writeHeader {path : List String} {name : String}
    (enough : path.length < nestingLimit - 1) {fields next : Fields}
    (opens : fields.openTable? path name = some next) (opened : List String) :
    Goes (writeHeader ((path ++ [name]).map writeKey)) ⟨fields, opened⟩ ⟨next, path ++ [name]⟩ := by
  apply goes_of_line?
  · exact ⟨'[', _, rfl, rfl⟩
  · intro rest
    rw [line?_writeHeader enough, opens]
    rfl

theorem unifyBreaks_of_not_mem {characters : List Char} (noReturn : '\r' ∉ characters) :
    unifyBreaks characters = characters := by
  induction characters with
  | nil => rfl
  | cons character characters ih =>
      rw [List.mem_cons, not_or] at noReturn
      obtain ⟨notReturn, noneLater⟩ := noReturn
      rw [unifyBreaks, ih noneLater]
      rintro rest isReturn
      exact absurd isReturn.symm notReturn

/-- A document that is read line by line is read as a whole. -/
theorem read?_of_goes {final : Progress} (goes : Goes written ⟨[], []⟩ final)
    (noReturn : '\r' ∉ written) (noMark : ∀ more, written ≠ '\ufeff' :: more) :
    read? (String.ofList written) = some (Item.fieldValues final.fields) := by
  have whole : unifyBreaks (dropMark written) = written := by
    rw [dropMark]
    · exact unifyBreaks_of_not_mem noReturn
    · exact noMark
  have read := goes 1 [] final.fields rfl
  rw [List.append_nil, Nat.add_comm] at read
  rw [read?, String.toList_ofList, whole, read]
  rfl

end Goes

end Toml

end Document

end CacheRouting
