import CacheRouting.Document.Toml.Reader
import CacheRouting.Proofs.Document.Text
import CacheRouting.Proofs.Text.Digits

/-!
# Written integers are read back

A row of digits before the end of a value is no moment, since those have marks
between their digits, and it is the integer that it spells.
-/

namespace CacheRouting

namespace Document

namespace Toml

/-- The digits of a number start with zero only when there is no other. -/
theorem exists_toDigits_eq_cons (number : Nat) :
    ∃ first rest, Nat.toDigits 10 number = first :: rest ∧ (first = '0' → rest = []) := by
  induction number using Nat.strongRecOn with
  | ind number ih =>
      by_cases small : number < 10
      · exact ⟨_, [], Nat.toDigits_of_lt_base small, fun _ => rfl⟩
      · obtain ⟨first, rest, digitsEq, zeroAlone⟩ := ih (number / 10) (by omega)
        have split : Nat.toDigits 10 number =
            Nat.toDigits 10 (number / 10) ++ [Nat.digitChar (number % 10)] :=
          Nat.toDigits_of_base_le (by decide) (by omega)
        refine ⟨first, rest ++ [Nat.digitChar (number % 10)], ?_, ?_⟩
        · rw [split, digitsEq, List.cons_append]
        · rintro rfl
          -- a number of one digit that is zero, but it has a tenth part
          have tenthIsZero := Text.numberOfDigits_toDigits (number / 10)
          rw [digitsEq, zeroAlone rfl] at tenthIsZero
          have zero : number / 10 = 0 := tenthIsZero.symm
          omega

section Digits

variable {digits rest : List Char} {mark : Char}

/-- After a fixed number of digits comes another digit or the end of the value. -/
theorem isDigit_or_eq_of_fixedDigits? {count value : Nat} {next : Char} {left : List Char}
    (allDigits : ∀ digit ∈ digits, digit.isDigit = true) (notDigit : mark.isDigit = false)
    (read : fixedDigits? count (digits ++ mark :: rest) = some (value, next :: left)) :
    next.isDigit = true ∨ next = mark := by
  unfold fixedDigits? at read
  dsimp only at read
  split at read
  · next taken =>
    obtain ⟨lengthEq, allTaken⟩ := taken
    obtain ⟨-, leftEq⟩ := Prod.mk.inj (Option.some.inj read)
    have within : count ≤ digits.length := by
      apply Nat.le_of_not_lt
      intro beyond
      have markTaken : mark ∈ (digits ++ mark :: rest).take count := by
        rw [List.take_append, List.mem_append]
        right
        obtain ⟨extra, extraEq⟩ : ∃ extra, count - digits.length = extra + 1 :=
          ⟨count - digits.length - 1, by omega⟩
        rw [extraEq, List.take_succ_cons]
        exact List.mem_cons_self
      have isDigit := List.all_eq_true.mp allTaken mark markTaken
      rw [notDigit] at isDigit
      cases isDigit
    rw [List.drop_append_of_le_length within] at leftEq
    cases later : digits.drop count with
    | nil =>
        rw [later] at leftEq
        exact Or.inr (List.cons.inj leftEq).1.symm
    | cons digit more =>
        rw [later] at leftEq
        obtain ⟨rfl, -⟩ := List.cons.inj leftEq
        exact Or.inl (allDigits _ (List.mem_of_mem_drop (later ▸ List.mem_cons_self)))
  · cases read

variable (allDigits : ∀ digit ∈ digits, digit.isDigit = true)
  (isEnd : mark = '\n' ∨ mark = ',' ∨ mark = ']')

include allDigits isEnd

theorem afterDate?_digits : afterDate? (digits ++ mark :: rest) = none := by
  have notDigit : mark.isDigit = false := by
    rcases isEnd with rfl | rfl | rfl <;> rfl
  unfold afterDate?
  split
  · next year left read =>
    rcases isDigit_or_eq_of_fixedDigits? allDigits notDigit read with isDigit | isMark
    · cases isDigit
    · subst isMark
      simp at isEnd
  · rfl

theorem afterTime?_digits : afterTime? (digits ++ mark :: rest) = none := by
  have notDigit : mark.isDigit = false := by
    rcases isEnd with rfl | rfl | rfl <;> rfl
  have noMinute : afterMinute? (digits ++ mark :: rest) = none := by
    unfold afterMinute?
    split
    · next hour left read =>
      rcases isDigit_or_eq_of_fixedDigits? allDigits notDigit read with isDigit | isMark
      · cases isDigit
      · subst isMark
        simp at isEnd
    · rfl
  rw [afterTime?, noMinute]

theorem digitRun_digits : digitRun Char.isDigit (digits ++ mark :: rest) = (digits, mark :: rest) := by
  induction digits with
  | nil => rcases isEnd with rfl | rfl | rfl <;> rfl
  | cons digit digits ih =>
      obtain ⟨isDigit, restDigits⟩ := List.forall_mem_cons.mp allDigits
      have notGroup : digit ≠ '_' := by
        rintro rfl
        cases isDigit
      rw [List.cons_append, digitRun]
      · simp [isDigit, ih restDigits]
      · simp [notGroup]

end Digits

section Integers

variable {number : Nat} {rest : List Char} {mark : Char}

theorem isDigit_of_mem_digitsOfNumber {digit : Char} (member : digit ∈ Text.digitsOfNumber number) :
    digit.isDigit = true :=
  Nat.isDigit_of_mem_toDigits (by decide) (by decide) member

theorem exists_digitsOfNumber_eq_cons (number : Nat) :
    ∃ first more, Text.digitsOfNumber number = first :: more ∧ first.isDigit = true ∧
      (first = '0' → more = []) := by
  obtain ⟨first, more, digitsEq, zeroAlone⟩ := exists_toDigits_eq_cons number
  have member : first ∈ Text.digitsOfNumber number := by
    rw [Text.digitsOfNumber, digitsEq]
    exact List.mem_cons_self
  exact ⟨first, more, digitsEq, isDigit_of_mem_digitsOfNumber member, zeroAlone⟩

variable (isEnd : mark = '\n' ∨ mark = ',' ∨ mark = ']')

include isEnd

theorem wholePart?_digits :
    wholePart? (Text.digitsOfNumber number ++ mark :: rest) =
      some (Text.digitsOfNumber number, mark :: rest) := by
  have run : digitRun Char.isDigit (Text.digitsOfNumber number ++ mark :: rest) =
      (Text.digitsOfNumber number, mark :: rest) :=
    digitRun_digits (fun _ => isDigit_of_mem_digitsOfNumber) isEnd
  obtain ⟨first, more, digitsEq, isDigit, zeroAlone⟩ := exists_digitsOfNumber_eq_cons number
  rw [digitsEq] at run ⊢
  by_cases isZero : first = '0'
  · rw [zeroAlone isZero, isZero]
    rfl
  · rw [List.cons_append, wholePart?]
    · rw [digits?, if_pos isDigit]
      exact congrArg some run
    · simp [isZero]

theorem decimalNumber?_digits (fits : number ≤ largestInteger) :
    decimalNumber? false (Text.digitsOfNumber number ++ mark :: rest) =
      some (.integer number, mark :: rest) := by
  have noFraction : fraction? (mark :: rest) = some (none, mark :: rest) := by
    rcases isEnd with rfl | rfl | rfl <;> rfl
  have noExponent : exponent? (mark :: rest) = some (none, mark :: rest) := by
    rcases isEnd with rfl | rfl | rfl <;> rfl
  have inRange : integerInRange? (number : Int) = some (.integer number) := by
    apply if_pos
    have largest : (largestInteger : Int) = Int64.maxValue.toInt := by decide
    have smallest : Int64.minValue.toInt ≤ 0 := by decide
    omega
  unfold decimalNumber?
  simp only [wholePart?_digits isEnd, noFraction, noExponent]
  simp [Text.digitsOfNumber, Text.numberOfDigits_toDigits, inRange]

theorem number?_digits (fits : number ≤ largestInteger) :
    number? (Text.digitsOfNumber number ++ mark :: rest) =
      some (.integer number, mark :: rest) := by
  have read : decimalNumber? false (Text.digitsOfNumber number ++ mark :: rest) =
      some (.integer number, mark :: rest) := decimalNumber?_digits isEnd fits
  obtain ⟨first, more, digitsEq, isDigit, zeroAlone⟩ := exists_digitsOfNumber_eq_cons number
  rw [digitsEq, List.cons_append] at read ⊢
  have notBased : ∀ base left, first = '0' → more ++ mark :: rest = base :: left →
      base = '\n' ∨ base = ',' ∨ base = ']' := by
    intro base left isZero same
    rw [zeroAlone isZero] at same
    exact (List.cons.inj same).1 ▸ isEnd
  have unsigned : NumberText.splitSign (first :: (more ++ mark :: rest)) =
      (false, first :: (more ++ mark :: rest)) := by
    rw [NumberText.splitSign]
    · rintro left same
      cases (List.cons.inj same).1 ▸ isDigit
    · rintro left same
      cases (List.cons.inj same).1 ▸ isDigit
  unfold number?
  split
  · next left same =>
    obtain ⟨isZero, moreEq⟩ := List.cons.inj same
    simpa using notBased 'x' left isZero moreEq
  · next left same =>
    obtain ⟨isZero, moreEq⟩ := List.cons.inj same
    simpa using notBased 'o' left isZero moreEq
  · next left same =>
    obtain ⟨isZero, moreEq⟩ := List.cons.inj same
    simpa using notBased 'b' left isZero moreEq
  · rw [unsigned]
    dsimp only
    split
    · next left same => cases (List.cons.inj same).1 ▸ isDigit
    · next left same => cases (List.cons.inj same).1 ▸ isDigit
    · exact read

theorem value?_digitsOfNumber (depth : Nat) (fits : number ≤ largestInteger) :
    value? depth (Text.digitsOfNumber number ++ mark :: rest) =
      some (.integer number, mark :: rest) := by
  have allDigits : ∀ digit ∈ Text.digitsOfNumber number, digit.isDigit = true :=
    fun _ => isDigit_of_mem_digitsOfNumber
  have notMoment : afterMoment? (Text.digitsOfNumber number ++ mark :: rest) = none := by
    rw [afterMoment?, afterDate?_digits allDigits isEnd]
    exact afterTime?_digits allDigits isEnd
  have read : momentOrNumber? (Text.digitsOfNumber number ++ mark :: rest) =
      some (.integer number, mark :: rest) := by
    rw [momentOrNumber?, notMoment]
    exact number?_digits isEnd fits
  obtain ⟨first, more, digitsEq, isDigit, -⟩ := exists_digitsOfNumber_eq_cons number
  rw [digitsEq, List.cons_append] at read ⊢
  have starts : ∀ letter tail, first :: (more ++ mark :: rest) = letter :: tail →
      letter.isDigit = true :=
    fun letter tail same => (List.cons.inj same).1 ▸ isDigit
  rw [value?]
  · exact read
  all_goals
    intro tail same
    cases starts _ _ same

end Integers

end Toml

end Document

end CacheRouting
