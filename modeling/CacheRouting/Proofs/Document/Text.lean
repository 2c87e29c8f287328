import CacheRouting.Document.Toml.Writer

/-!
# Written text is read back

Each form in which text is written undoes what its reader does.  A writer chooses
a form without escapes only where no character needs one, and between tripled
double quotes it breaks up every run of three.
-/

namespace CacheRouting

namespace Document

namespace Toml

theorem isVisible_of_isCoded_eq_false {character : Char} (notCoded : isCoded character = false)
    (notBreak : character ≠ '\n') : isVisible character = true := by
  simpa [isCoded, notBreak] using notCoded

theorem toNat_lt_of_isCoded {character : Char} (coded : isCoded character = true) :
    character.toNat < 128 := by
  have hidden : isVisible character = false := by
    simp only [isCoded, Bool.and_eq_true] at coded
    simpa using coded.1
  simp only [isVisible, Bool.or_eq_false_iff, Bool.and_eq_false_iff] at hidden
  rcases hidden.2 with below | isDelete
  · have small : character.toNat < ' '.toNat := by
      simpa [Char.le_def, UInt32.le_iff_toNat_le] using below
    exact Nat.lt_trans small (by decide)
  · have isDelete : character = '\x7f' := by simpa using isDelete
    rw [isDelete]
    decide

theorem scalarOfHex?_hexDigits {character : Char} (small : character.toNat < 128) :
    scalarOfHex? ((Text.hexDigits 4 character.toNat).map Char.toUpper) = some character := by
  have spelled : ∀ code < 128,
      scalarOfHex? ((Text.hexDigits 4 code).map Char.toUpper) = some (Char.ofNat code) := by
    decide +kernel
  rw [spelled _ small, Char.ofNat_toNat]

theorem exists_unicodeEscape {character : Char} (coded : isCoded character = true) :
    ∃ a b c d, unicodeEscape character = ['\\', 'u', a, b, c, d] ∧
      scalarOfHex? [a, b, c, d] = some character := by
  have digits := scalarOfHex?_hexDigits (toNat_lt_of_isCoded coded)
  simp only [Text.hexDigits, List.nil_append, List.cons_append, List.map_cons, List.map_nil] at digits
  exact ⟨_, _, _, _, rfl, digits⟩

/-- What the readers of both forms with double quotes make of escapes and of characters that
stand for themselves. -/
structure ReadsEscapes (read : List Char → Reading (List Char)) : Prop where
  letter : ∀ letter character rest, simpleEscape? letter = some character →
    read ('\\' :: letter :: rest) = prepend (some character) (read rest)
  code : ∀ a b c d rest,
    read ('\\' :: 'u' :: a :: b :: c :: d :: rest) = prepend (scalarOfHex? [a, b, c, d]) (read rest)
  plain : ∀ character rest, isBasic character = true →
    read (character :: rest) = prepend (some character) (read rest)

theorem readsEscapes_basicText : ReadsEscapes basicText where
  letter := by
    intro letter character rest stands
    unfold simpleEscape? at stands
    split at stands <;> cases stands <;> rfl
  code := by
    intro a b c d rest
    rfl
  plain := by
    intro character rest basic
    rw [basicText.eq_def]
    split <;> simp_all [isBasic]

theorem readsEscapes_basicLines : ReadsEscapes (basicLines .closed) where
  letter := by
    intro letter character rest stands
    unfold simpleEscape? at stands
    split at stands <;> cases stands <;> rfl
  code := by
    intro a b c d rest
    rfl
  plain := by
    intro character rest basic
    rw [basicLines.eq_def]
    split <;> simp_all [isBasic]

theorem ReadsEscapes.escapeCommon {read : List Char → Reading (List Char)}
    (reads : ReadsEscapes read) {character : Char} (notQuote : character ≠ '"')
    (notBreak : character ≠ '\n') (rest : List Char) :
    read (escapeCommon character ++ rest) = prepend (some character) (read rest) := by
  unfold Toml.escapeCommon
  split
  · exact reads.letter 'b' _ rest rfl
  · exact reads.letter 't' _ rest rfl
  · exact reads.letter 'f' _ rest rfl
  · exact reads.letter 'r' _ rest rfl
  · exact reads.letter '\\' _ rest rfl
  · next notEscape =>
    split
    · next coded =>
      obtain ⟨a, b, c, d, escapeEq, spelled⟩ := exists_unicodeEscape coded
      rw [escapeEq, ← spelled]
      exact reads.code a b c d rest
    · next notCoded =>
      apply reads.plain
      have visible := isVisible_of_isCoded_eq_false (by simpa using notCoded) notBreak
      simp [isBasic, visible, notQuote]
      exact notEscape

theorem basicText_escapeOnLine (character : Char) (rest : List Char) :
    basicText (escapeOnLine character ++ rest) = prepend (some character) (basicText rest) := by
  unfold escapeOnLine
  split
  · exact readsEscapes_basicText.letter '"' _ rest rfl
  · exact readsEscapes_basicText.letter 'n' _ rest rfl
  · next notQuote notBreak =>
    exact readsEscapes_basicText.escapeCommon notQuote notBreak rest

/-- Text between double quotes is read back up to the closing quote. -/
theorem basicText_flatMap_escapeOnLine (text rest : List Char) :
    basicText (text.flatMap escapeOnLine ++ '"' :: rest) = some (text, rest) := by
  induction text with
  | nil => rfl
  | cons character text ih =>
      rw [List.flatMap_cons, List.append_assoc, basicText_escapeOnLine, ih]
      rfl

/-- Text between single quotes is read back if it holds none and no character is coded. -/
theorem literalText_append {text : List Char} (literal : ∀ character ∈ text, isLiteral character = true)
    (rest : List Char) : literalText (text ++ '\'' :: rest) = some (text, rest) := by
  induction text with
  | nil => rw [List.nil_append, literalText]
  | cons character text ih =>
      obtain ⟨isLiteral, restLiteral⟩ := List.forall_mem_cons.mp literal
      have notQuote : character ≠ '\'' := by
        rintro rfl
        cases isLiteral
      rw [List.cons_append, literalText.eq_def]
      split <;> simp_all [prepend]

/-- A quote that two others do not follow stands for itself.  Three close the text, and one
before them still belongs to it. -/
theorem basicLines_quotes (rest : List Char) :
    ((∀ more, rest ≠ '"' :: '"' :: more) →
      basicLines .closed ('"' :: rest) = prepend (some '"') (basicLines .closed rest)) ∧
    ((∀ more, rest ≠ '"' :: more) →
      basicLines .closed ('"' :: '"' :: '"' :: rest) = some ([], rest) ∧
        basicLines .closed ('"' :: '"' :: '"' :: '"' :: rest) = some (['"'], rest)) := by
  refine ⟨fun apart => ?_, fun apart => ⟨?_, ?_⟩⟩
  all_goals rw [basicLines] <;> simp_all

theorem basicLines_quote {rest : List Char} (apart : ∀ more, rest ≠ '"' :: '"' :: more) :
    basicLines .closed ('"' :: rest) = prepend (some '"') (basicLines .closed rest) :=
  (basicLines_quotes rest).1 apart

theorem basicLines_close {rest : List Char} (apart : ∀ more, rest ≠ '"' :: more) :
    basicLines .closed ('"' :: '"' :: '"' :: rest) = some ([], rest) :=
  ((basicLines_quotes rest).2 apart).1

theorem basicLines_close_one {rest : List Char} (apart : ∀ more, rest ≠ '"' :: more) :
    basicLines .closed ('"' :: '"' :: '"' :: '"' :: rest) = some (['"'], rest) :=
  ((basicLines_quotes rest).2 apart).2

theorem basicLines_close_two (rest : List Char) :
    basicLines .closed ('"' :: '"' :: '"' :: '"' :: '"' :: rest) = some (['"', '"'], rest) :=
  rfl

theorem exists_escapeCommon_eq_cons {character : Char} (notQuote : character ≠ '"')
    (notBreak : character ≠ '\n') :
    ∃ first rest, escapeCommon character = first :: rest ∧ first ≠ '"' ∧ first ≠ '\n' := by
  unfold escapeCommon
  split
  · exact ⟨_, _, rfl, by decide, by decide⟩
  · exact ⟨_, _, rfl, by decide, by decide⟩
  · exact ⟨_, _, rfl, by decide, by decide⟩
  · exact ⟨_, _, rfl, by decide, by decide⟩
  · exact ⟨_, _, rfl, by decide, by decide⟩
  · split
    · exact ⟨_, _, rfl, by decide, by decide⟩
    · exact ⟨_, _, rfl, notQuote, notBreak⟩

theorem escapeCommon_break : escapeCommon '\n' = ['\n'] := by
  decide

theorem escapeLines_of_ne {character : Char} (notQuote : character ≠ '"') (quotes : Nat)
    (text : List Char) :
    escapeLines quotes (character :: text) = escapeCommon character ++ escapeLines 0 text := by
  rw [escapeLines]
  exact notQuote

/-- After two quotes, and before another character, no quote is written as it stands. -/
theorem escapeLines_append_ne {quotes : Nat} {character : Char} (text more tail : List Char)
    (breaks : quotes = 2 ∨ character ≠ '"') :
    escapeLines quotes (character :: text) ++ more ≠ '"' :: tail := by
  by_cases isQuote : character = '"'
  · subst isQuote
    have two : quotes = 2 := breaks.resolve_right (by simp)
    simp [escapeLines, two]
  · rw [escapeLines_of_ne isQuote]
    by_cases isBreak : character = '\n'
    · subst isBreak
      simp [escapeCommon_break]
    · obtain ⟨first, rest, escapeEq, notQuote, -⟩ := exists_escapeCommon_eq_cons isQuote isBreak
      simp [escapeEq, notQuote]

theorem escapeLines_quote {quotes : Nat} (notTwo : quotes ≠ 2) (text : List Char) :
    escapeLines quotes ('"' :: text) = '"' :: escapeLines (quotes + 1) text := by
  rw [escapeLines, if_neg notTwo]

section Tripled

variable {text rest : List Char} (apart : ∀ more, rest ≠ '"' :: more)
  (readsText : ∀ quotes ≤ 2,
    basicLines .closed (escapeLines quotes text ++ '"' :: '"' :: '"' :: rest) = some (text, rest))

include readsText

/-- A quote before others that do not close the text. -/
theorem basicLines_quote_append {quotes : Nat} (few : quotes ≤ 2)
    (alone : ∀ more, escapeLines quotes text ++ '"' :: '"' :: '"' :: rest ≠ '"' :: '"' :: more) :
    basicLines .closed ('"' :: escapeLines quotes text ++ '"' :: '"' :: '"' :: rest) =
      some ('"' :: text, rest) := by
  rw [List.cons_append, basicLines_quote alone, readsText quotes few]
  rfl

include apart

/-- A quote is read back.  Where a run of quotes meets the closing ones, the reader takes the
last three to close. -/
theorem basicLines_escapeLines_quote {quotes : Nat} (few : quotes ≤ 2) :
    basicLines .closed (escapeLines quotes ('"' :: text) ++ '"' :: '"' :: '"' :: rest) =
      some ('"' :: text, rest) := by
  by_cases two : quotes = 2
  · have read := readsEscapes_basicLines.letter '"' '"'
      (escapeLines 0 text ++ '"' :: '"' :: '"' :: rest) rfl
    rw [readsText 0 (Nat.zero_le 2)] at read
    rw [escapeLines, if_pos two]
    exact read
  · have goesOn := basicLines_quote_append readsText (by omega : quotes + 1 ≤ 2)
    rw [escapeLines_quote two]
    cases text with
    | nil => exact basicLines_close_one apart
    | cons next text =>
        by_cases breaks : quotes + 1 = 2 ∨ next ≠ '"'
        · exact goesOn fun more => escapeLines_append_ne text _ _ breaks
        · -- the second of two quotes, which may be the last of the text
          obtain ⟨isFirst, isQuote⟩ := not_or.mp breaks
          have isQuote : next = '"' := Classical.not_not.mp isQuote
          have isSecond : quotes + 1 + 1 = 2 := by omega
          subst isQuote
          cases text with
          | nil =>
              rw [escapeLines_quote isFirst]
              exact basicLines_close_two rest
          | cons last text =>
              apply goesOn
              intro more same
              rw [escapeLines_quote isFirst, isSecond, List.cons_append] at same
              exact escapeLines_append_ne text _ _ (Or.inl rfl) (List.tail_eq_of_cons_eq same)

omit apart in
theorem basicLines_escapeLines_of_ne {character : Char} (notQuote : character ≠ '"')
    (quotes : Nat) :
    basicLines .closed (escapeLines quotes (character :: text) ++ '"' :: '"' :: '"' :: rest) =
      some (character :: text, rest) := by
  rw [escapeLines_of_ne notQuote, List.append_assoc]
  by_cases isBreak : character = '\n'
  · subst isBreak
    have read : basicLines .closed ('\n' :: (escapeLines 0 text ++ '"' :: '"' :: '"' :: rest)) =
        prepend (some '\n')
          (basicLines .closed (escapeLines 0 text ++ '"' :: '"' :: '"' :: rest)) :=
      rfl
    rw [readsText 0 (Nat.zero_le 2)] at read
    exact read
  · rw [readsEscapes_basicLines.escapeCommon notQuote isBreak, readsText 0 (Nat.zero_le 2)]
    rfl

end Tripled

/-- Text between tripled double quotes is read back. -/
theorem basicLines_escapeLines {rest : List Char} (apart : ∀ more, rest ≠ '"' :: more)
    (text : List Char) (quotes : Nat) (few : quotes ≤ 2) :
    basicLines .closed (escapeLines quotes text ++ '"' :: '"' :: '"' :: rest) =
      some (text, rest) := by
  induction text generalizing quotes with
  | nil => exact basicLines_close apart
  | cons character text ih =>
      by_cases isQuote : character = '"'
      · subst isQuote
        exact basicLines_escapeLines_quote apart ih few
      · exact basicLines_escapeLines_of_ne ih isQuote quotes

theorem literalLines_quotes (rest : List Char) :
    ((∀ more, rest ≠ '\'' :: '\'' :: more) →
      literalLines ('\'' :: rest) = prepend (some '\'') (literalLines rest)) ∧
    ((∀ more, rest ≠ '\'' :: more) →
      literalLines ('\'' :: '\'' :: '\'' :: rest) = some ([], rest) ∧
        literalLines ('\'' :: '\'' :: '\'' :: '\'' :: rest) = some (['\''], rest)) := by
  refine ⟨fun apart => ?_, fun apart => ⟨?_, ?_⟩⟩
  all_goals rw [literalLines] <;> simp_all [isVisible]

theorem literalLines_quote {rest : List Char} (apart : ∀ more, rest ≠ '\'' :: '\'' :: more) :
    literalLines ('\'' :: rest) = prepend (some '\'') (literalLines rest) :=
  (literalLines_quotes rest).1 apart

theorem literalLines_close {rest : List Char} (apart : ∀ more, rest ≠ '\'' :: more) :
    literalLines ('\'' :: '\'' :: '\'' :: rest) = some ([], rest) :=
  ((literalLines_quotes rest).2 apart).1

theorem literalLines_close_one {rest : List Char} (apart : ∀ more, rest ≠ '\'' :: more) :
    literalLines ('\'' :: '\'' :: '\'' :: '\'' :: rest) = some (['\''], rest) :=
  ((literalLines_quotes rest).2 apart).2

/-- Text between tripled single quotes is read back if no character is coded and no three
quotes stand in a row. -/
theorem literalLines_append {rest : List Char} (apart : ∀ more, rest ≠ '\'' :: more)
    {text : List Char} (notCoded : ∀ character ∈ text, isCoded character = false)
    (noTriple : hasTriple '\'' text = false) :
    literalLines (text ++ '\'' :: '\'' :: '\'' :: rest) = some (text, rest) := by
  induction text with
  | nil => exact literalLines_close apart
  | cons character text ih =>
      obtain ⟨isPlain, restPlain⟩ := List.forall_mem_cons.mp notCoded
      rw [hasTriple, Bool.or_eq_false_iff] at noTriple
      obtain ⟨noneHere, noneLater⟩ := noTriple
      have read := ih restPlain noneLater
      by_cases isQuote : character = '\''
      · subst isQuote
        have goesOn (alone : ∀ more, text ++ '\'' :: '\'' :: '\'' :: rest ≠ '\'' :: '\'' :: more) :
            literalLines ('\'' :: text ++ '\'' :: '\'' :: '\'' :: rest) =
              some ('\'' :: text, rest) := by
          rw [List.cons_append, literalLines_quote alone, read]
          rfl
        match text, noneHere with
        | [], _ => exact literalLines_close_one apart
        | [next], _ =>
            by_cases isQuote : next = '\''
            · subst isQuote
              rfl
            · exact goesOn (by simp [isQuote])
        | next :: last :: text, noneHere =>
            apply goesOn
            simpa using noneHere
      · have visible : (isVisible character || character == '\n') = true := by
          by_cases isBreak : character = '\n'
          · simp [isBreak]
          · simp [isVisible_of_isCoded_eq_false isPlain isBreak]
        rw [List.cons_append, literalLines.eq_def]
        split <;> simp_all [prepend]

/-- What follows a value: a line break, a comma or a closing bracket. -/
def EndsValue (rest : List Char) : Prop :=
  ∃ mark more, rest = mark :: more ∧ (mark = '\n' ∨ mark = ',' ∨ mark = ']')

theorem EndsValue.ne_cons {rest : List Char} (ends : EndsValue rest) {character : Char}
    (other : character ≠ '\n' ∧ character ≠ ',' ∧ character ≠ ']') (more : List Char) :
    rest ≠ character :: more := by
  rintro rfl
  obtain ⟨mark, more, same, isMark⟩ := ends
  cases same
  simp_all

theorem escapeOnLine_append_ne (character : Char) (more tail : List Char) :
    escapeOnLine character ++ more ≠ '"' :: tail := by
  unfold escapeOnLine
  split
  · simp
  · simp
  · next notQuote notBreak =>
    obtain ⟨first, rest, escapeEq, firstNotQuote, -⟩ := exists_escapeCommon_eq_cons notQuote notBreak
    simp [escapeEq, firstNotQuote]

theorem dropBreak_of_ne {characters : List Char} (notBreak : ∀ more, characters ≠ '\n' :: more) :
    dropBreak characters = characters := by
  unfold dropBreak
  split
  · next rest => exact absurd rfl (notBreak rest)
  · rfl

theorem escapeLines_append_ne_break {character : Char} (notBreak : character ≠ '\n')
    (text more tail : List Char) : escapeLines 0 (character :: text) ++ more ≠ '\n' :: tail := by
  by_cases isQuote : character = '"'
  · subst isQuote
    simp [escapeLines]
  · rw [escapeLines_of_ne isQuote]
    obtain ⟨first, rest, escapeEq, -, firstNotBreak⟩ :=
      exists_escapeCommon_eq_cons isQuote notBreak
    simp [escapeEq, firstNotBreak]

/-- In which form text can be written. -/
def TextForm.Holds (text : List Char) : TextForm → Prop
  | basicLine => True
  | literalLine => ∀ character ∈ text, isLiteral character = true
  | basicLines => True
  | literalLines =>
      (∀ character ∈ text, isCoded character = false) ∧ hasTriple '\'' text = false

theorem TextForm.holds_choose (text : List Char) : (TextForm.choose text).Holds text := by
  unfold TextForm.choose
  dsimp only
  split
  · trivial
  · split
    · next unescaped =>
      simp only [Bool.and_eq_true, Bool.not_eq_true', List.any_eq_false, List.contains_eq_mem,
        decide_eq_false_iff_not] at unescaped
      obtain ⟨⟨notCoded, noQuote⟩, noBreak⟩ := unescaped
      intro character member
      have visible := isVisible_of_isCoded_eq_false (by simpa using notCoded character member)
        fun isBreak => noBreak (isBreak ▸ member)
      have notQuote : character ≠ '\'' := fun isQuote => noQuote (isQuote ▸ member)
      simp [isLiteral, visible, notQuote]
    · split
      · trivial
      · split
        · next unescaped =>
          simp only [Bool.and_eq_true, Bool.not_eq_true', List.any_eq_false] at unescaped
          exact ⟨fun character member => by simpa using unescaped.1 character member, unescaped.2⟩
        · split <;> trivial

theorem quotedText?_basicText {characters : List Char}
    (apart : ∀ more, characters ≠ '"' :: '"' :: more) :
    quotedText? ('"' :: characters) = basicText characters := by
  rw [quotedText?]
  simp_all

theorem quotedText?_literalText {characters : List Char}
    (apart : ∀ more, characters ≠ '\'' :: '\'' :: more) :
    quotedText? ('\'' :: characters) = literalText characters := by
  rw [quotedText?]
  simp_all

/-- The break after tripled quotes is dropped, and nothing else is. -/
theorem dropBreak_leadingBreak_append {text written : List Char}
    (starts : ∀ first rest, text = first :: rest → first ≠ '\n' →
      ∀ more, written ≠ '\n' :: more) (ofNil : text = [] → ∀ more, written ≠ '\n' :: more) :
    dropBreak (leadingBreak text ++ written) = written := by
  unfold leadingBreak
  split
  · rfl
  · next noBreak =>
    apply dropBreak_of_ne
    cases text with
    | nil => exact ofNil rfl
    | cons first text =>
        apply starts first text rfl
        rintro rfl
        simp at noBreak

section Write

variable (text rest : List Char)

theorem TextForm.basicLine_write_append : TextForm.basicLine.write text ++ rest =
    '"' :: (text.flatMap escapeOnLine ++ '"' :: rest) := by
  simp [TextForm.write]

theorem TextForm.literalLine_write_append : TextForm.literalLine.write text ++ rest =
    '\'' :: (text ++ '\'' :: rest) := by
  simp [TextForm.write]

theorem TextForm.basicLines_write_append : TextForm.basicLines.write text ++ rest =
    '"' :: '"' :: '"' :: (leadingBreak text ++ (escapeLines 0 text ++ '"' :: '"' :: '"' :: rest)) := by
  simp [TextForm.write]

theorem TextForm.literalLines_write_append : TextForm.literalLines.write text ++ rest =
    '\'' :: '\'' :: '\'' :: (leadingBreak text ++ (text ++ '\'' :: '\'' :: '\'' :: rest)) := by
  simp [TextForm.write]

end Write

theorem TextForm.quotedText?_write {form : TextForm} {text rest : List Char}
    (holds : form.Holds text) (ends : EndsValue rest) :
    quotedText? (form.write text ++ rest) = some (text, rest) := by
  have notDouble : ∀ more, rest ≠ '"' :: more := ends.ne_cons (by decide)
  have notSingle : ∀ more, rest ≠ '\'' :: more := ends.ne_cons (by decide)
  cases form with
  | basicLine =>
      have apart : ∀ more, text.flatMap escapeOnLine ++ '"' :: rest ≠ '"' :: '"' :: more := by
        intro more
        cases text with
        | nil => simpa using notDouble more
        | cons first text =>
            rw [List.flatMap_cons, List.append_assoc]
            exact escapeOnLine_append_ne first _ _
      rw [basicLine_write_append, quotedText?_basicText apart, basicText_flatMap_escapeOnLine]
  | literalLine =>
      have apart : ∀ more, text ++ '\'' :: rest ≠ '\'' :: '\'' :: more := by
        intro more
        cases text with
        | nil => simpa using notSingle more
        | cons first text =>
            intro same
            obtain ⟨rfl, -⟩ := List.cons.inj same
            have isLiteral := holds '\'' List.mem_cons_self
            cases isLiteral
      rw [literalLine_write_append, quotedText?_literalText apart, literalText_append holds]
  | basicLines =>
      rw [basicLines_write_append, quotedText?, dropBreak_leadingBreak_append,
        basicLines_escapeLines notDouble text 0 (Nat.zero_le 2)]
      · rintro first more rfl notBreak
        exact escapeLines_append_ne_break notBreak more _
      · rintro rfl
        simp [escapeLines]
  | literalLines =>
      rw [literalLines_write_append, quotedText?, dropBreak_leadingBreak_append,
        literalLines_append notSingle holds.1 holds.2]
      · rintro first more rfl notBreak
        simp [notBreak]
      · rintro rfl
        simp

/-- Written text is read back, whatever it holds. -/
theorem quotedText?_writeText (text : String) {rest : List Char} (ends : EndsValue rest) :
    quotedText? (writeText text ++ rest) = some (text.toList, rest) :=
  TextForm.quotedText?_write (TextForm.holds_choose text.toList) ends

theorem simpleKey?_basicLine (text rest : List Char) :
    simpleKey? (TextForm.basicLine.write text ++ rest) = some (String.ofList text, rest) := by
  rw [TextForm.basicLine_write_append, simpleKey?, basicText_flatMap_escapeOnLine]
  rfl

theorem simpleKey?_literalLine {text : List Char} (literal : TextForm.literalLine.Holds text)
    (rest : List Char) :
    simpleKey? (TextForm.literalLine.write text ++ rest) = some (String.ofList text, rest) := by
  rw [TextForm.literalLine_write_append, simpleKey?, literalText_append literal]
  rfl

theorem simpleKey?_bare {text rest : List Char} (notEmpty : text ≠ [])
    (bare : ∀ character ∈ text, isBare character = true)
    (ends : ∀ first more, rest = first :: more → isBare first = false) :
    simpleKey? (text ++ rest) = some (String.ofList text, rest) := by
  have restEq : rest.takeWhile isBare = [] ∧ rest.dropWhile isBare = rest := by
    cases rest with
    | nil => simp
    | cons first more => simp [ends first more rfl]
  have notQuoted : ∀ quote more, text ++ rest = quote :: more → isBare quote = true := by
    intro quote more same
    cases text with
    | nil => exact absurd rfl notEmpty
    | cons first text =>
        obtain ⟨rfl, -⟩ := List.cons.inj same
        exact bare first List.mem_cons_self
  rw [simpleKey?]
  · rw [List.takeWhile_append_of_pos bare, List.dropWhile_append_of_pos bare, restEq.1, restEq.2]
    simp [notEmpty]
  · intro more same
    cases notQuoted '"' more same
  · intro more same
    cases notQuoted '\'' more same

/-- A written key is read back, where nothing follows that could belong to it. -/
theorem simpleKey?_writeKey (name : String) {rest : List Char}
    (ends : ∀ first more, rest = first :: more → isBare first = false) :
    simpleKey? (writeKey name ++ rest) = some (name, rest) := by
  unfold writeKey
  dsimp only
  split
  · next allBare =>
    simp only [Bool.and_eq_true, Bool.not_eq_true', List.isEmpty_eq_false_iff, List.all_eq_true]
      at allBare
    rw [simpleKey?_bare allBare.1 allBare.2 ends, String.ofList_toList]
  · split
    · rw [simpleKey?_basicLine, String.ofList_toList]
    · split
      · next unescaped =>
        simp only [Bool.and_eq_true, Bool.not_eq_true', List.any_eq_false, Bool.or_eq_true,
          not_or, List.contains_eq_mem, decide_eq_false_iff_not] at unescaped
        obtain ⟨notCoded, noQuote⟩ := unescaped
        have literal : TextForm.literalLine.Holds name.toList := by
          intro character member
          obtain ⟨isPlain, notBreak⟩ := notCoded character member
          have visible := isVisible_of_isCoded_eq_false (by simpa using isPlain) (by simpa using notBreak)
          have notQuote : character ≠ '\'' := fun isQuote => noQuote (isQuote ▸ member)
          simp [isLiteral, visible, notQuote]
        rw [simpleKey?_literalLine literal, String.ofList_toList]
      · rw [simpleKey?_basicLine, String.ofList_toList]

end Toml

end Document

end CacheRouting
