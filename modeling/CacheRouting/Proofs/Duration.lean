import CacheRouting.Duration
import CacheRouting.Proofs.Text.Blank
import CacheRouting.Proofs.Text.Digits
import Mathlib.Algebra.Group.Nat.Defs

/-!
# Written durations

A duration is read from the decimal spelling of a number, after any zeros, and a unit
behind it.  So a text stands for no time at all exactly when nothing but zeros is
before its unit.  What is read lasts exactly as many units as the number says, and no
number that is too large is taken for a smaller one.
-/

namespace CacheRouting

namespace Duration

def units : List (List Char) := [[], ['s'], ['m', 's'], ['m']]

variable {text : String} {number : Nat} {unit : List Char} {duration : Duration}

theorem mem_units_of_ofUnit? (isDuration : ofUnit? number unit = some duration) : unit ∈ units := by
  unfold ofUnit? at isDuration
  split at isDuration
  case h_5 => cases isDuration
  all_goals decide

/-- No unit could be taken for more of the number. -/
theorem head_ne_digit_of_mem_units (isUnit : unit ∈ units) :
    ∀ character ∈ unit.head?, character.isDigit = false := by
  simp only [units, List.mem_cons, List.not_mem_nil, or_false] at isUnit
  rcases isUnit with rfl | rfl | rfl | rfl <;> simp

/-- A number in a unit comes to nothing only if it is zero. -/
theorem milliseconds_eq_zero_iff (isDuration : ofUnit? number unit = some duration) :
    duration.milliseconds = 0 ↔ number = 0 := by
  unfold ofUnit? at isDuration
  split at isDuration
  case h_3 =>
    cases isDuration
    exact Iff.rfl
  case h_4 =>
    split at isDuration
    · cases isDuration
      simp only [ofSeconds]
      omega
    · cases isDuration
  case h_5 => cases isDuration
  all_goals
    cases isDuration
    simp only [ofSeconds]
    omega

theorem exists_ofUnit?_zero (isUnit : unit ∈ units) : ofUnit? 0 unit = some ⟨0⟩ := by
  revert unit
  decide

theorem takeWhile_digits_append {digits : List Char}
    (allDigits : ∀ digit ∈ digits, digit.isDigit = true) (isUnit : unit ∈ units) :
    (digits ++ unit).takeWhile Char.isDigit = digits ∧
      (digits ++ unit).dropWhile Char.isDigit = unit := by
  have noMore := head_ne_digit_of_mem_units isUnit
  rw [List.takeWhile_append_of_pos allDigits, List.dropWhile_append_of_pos allDigits]
  cases unit with
  | nil => simp
  | cons first rest =>
      have notDigit : first.isDigit = false := noMore first rfl
      simp [notDigit]

/-- What is read is the spelling of a number with a unit behind it, and nothing else. -/
theorem parse?_eq_some_iff :
    parse? text = some duration ↔
      ∃ zeros number unit,
        Text.trim text.toList = List.replicate zeros '0' ++ Nat.toDigits 10 number ++ unit ∧
          number < countBound ∧ ofUnit? number unit = some duration := by
  unfold parse?
  dsimp only
  constructor
  · intro parsed
    split at parsed
    · next number read =>
      obtain ⟨⟨zeros, digitsEq⟩, inRange⟩ := Text.readDigits?_eq_some_iff.mp read
      refine ⟨zeros, number, _, ?_, inRange, parsed⟩
      rw [← digitsEq, List.takeWhile_append_dropWhile]
    · cases parsed
  · rintro ⟨zeros, number, unit, trimmedEq, inRange, isDuration⟩
    obtain ⟨digitsEq, unitEq⟩ := takeWhile_digits_append
      (fun _ => Text.isDigit_of_mem_replicate_append) (mem_units_of_ofUnit? isDuration)
    have read := Text.readDigits?_eq_some_iff.mpr ⟨⟨zeros, rfl⟩, inRange⟩
    rw [trimmedEq, digitsEq, unitEq, read]
    exact isDuration

/-- One zero or more, and a unit. -/
def WritesZero (text : String) : Prop :=
  ∃ zeros, ∃ unit ∈ units, Text.trim text.toList = List.replicate (zeros + 1) '0' ++ unit

/-- The texts that are read as no time at all. -/
theorem writesZero_iff (parsed : parse? text = some duration) :
    WritesZero text ↔ duration.milliseconds = 0 := by
  constructor
  · rintro ⟨zeros, unit, isUnit, trimmedEq⟩
    have parsedZero : parse? text = some ⟨0⟩ := by
      refine parse?_eq_some_iff.mpr ⟨zeros, 0, unit, ?_, by decide, exists_ofUnit?_zero isUnit⟩
      rw [trimmedEq, List.replicate_succ']
      rfl
    cases parsed.symm.trans parsedZero
    rfl
  · intro isZero
    obtain ⟨zeros, number, unit, trimmedEq, -, isDuration⟩ := parse?_eq_some_iff.mp parsed
    obtain rfl := (milliseconds_eq_zero_iff isDuration).mp isZero
    refine ⟨zeros, unit, mem_units_of_ofUnit? isDuration, ?_⟩
    rw [trimmedEq, List.replicate_succ']
    rfl

inductive TimeUnit
  | bare
  | seconds
  | milliseconds
  | minutes
  deriving DecidableEq

namespace TimeUnit

def symbol : TimeUnit → String
  | bare => ""
  | seconds => "s"
  | milliseconds => "ms"
  | minutes => "m"

def length : TimeUnit → Nat
  | bare => 1000
  | seconds => 1000
  | milliseconds => 1
  | minutes => 60000

/-- Whether so many of the unit can be counted in 64 bits, minutes by their seconds. -/
def Counts (unit : TimeUnit) (number : Nat) : Prop :=
  number < 2 ^ 64 ∧ (unit = minutes → 60 * number < 2 ^ 64)

instance (unit : TimeUnit) (number : Nat) : Decidable (unit.Counts number) :=
  inferInstanceAs (Decidable (number < 2 ^ 64 ∧ (unit = minutes → 60 * number < 2 ^ 64)))

theorem hasNoBlank_symbol (unit : TimeUnit) : Text.HasNoBlank unit.symbol.toList := by
  cases unit <;> decide

/-- As many of a unit as count last less than 2^64 seconds. -/
theorem wholeSeconds_lt {unit : TimeUnit} (counts : unit.Counts number) :
    (⟨number * unit.length⟩ : Duration).wholeSeconds < 2 ^ 64 := by
  obtain ⟨inRange, minutesInRange⟩ := counts
  rw [wholeSeconds]
  cases unit with
  | minutes =>
      have := minutesInRange rfl
      simp only [length]
      omega
  | bare | seconds | milliseconds =>
      simp only [length]
      omega

end TimeUnit

/-- The text is a row of digits with the symbol of a unit behind it, and blanks around. -/
def Writes (text : String) (number : Nat) (unit : TimeUnit) : Prop :=
  ∃ before digits after, Text.IsAllBlank before ∧ Text.IsAllBlank after ∧
    digits ≠ [] ∧ (∀ digit ∈ digits, digit.isDigit = true) ∧
    Nat.ofDigitChars 10 digits 0 = number ∧
    text.toList = before ++ (digits ++ unit.symbol.toList) ++ after

theorem ofUnit?_eq_some_iff :
    ofUnit? number unit = some duration ↔
      ∃ kind : TimeUnit, unit = kind.symbol.toList ∧
        (kind = .minutes → 60 * number < 2 ^ 64) ∧ duration = ⟨number * kind.length⟩ := by
  constructor
  · intro isDuration
    unfold ofUnit? at isDuration
    split at isDuration
    case h_1 =>
      cases isDuration
      exact ⟨.bare, rfl, by simp, by rw [ofSeconds, Nat.mul_comm]; rfl⟩
    case h_2 =>
      cases isDuration
      exact ⟨.seconds, rfl, by simp, by rw [ofSeconds, Nat.mul_comm]; rfl⟩
    case h_3 =>
      cases isDuration
      exact ⟨.milliseconds, rfl, by simp, by rw [TimeUnit.length, Nat.mul_one]⟩
    case h_4 =>
      split at isDuration
      next inRange =>
        cases isDuration
        refine ⟨.minutes, rfl, fun _ => by rw [Nat.mul_comm]; exact inRange, ?_⟩
        rw [ofSeconds, TimeUnit.length, Duration.mk.injEq]
        omega
      next => cases isDuration
    case h_5 => cases isDuration
  · rintro ⟨kind, rfl, inRange, rfl⟩
    cases kind with
    | bare => exact congrArg (some ∘ Duration.mk) (Nat.mul_comm 1000 number)
    | seconds => exact congrArg (some ∘ Duration.mk) (Nat.mul_comm 1000 number)
    | milliseconds => exact congrArg (some ∘ Duration.mk) (Nat.mul_one number).symm
    | minutes =>
        have fits : number * 60 < countBound := by
          rw [Nat.mul_comm]
          exact inRange rfl
        have symbolEq : TimeUnit.minutes.symbol.toList = ['m'] := rfl
        rw [symbolEq, ofUnit?, if_pos fits, ofSeconds, TimeUnit.length, Option.some.injEq,
          Duration.mk.injEq]
        omega

/-- Exactly what writes a countable number of a unit is read, as so many of the unit. -/
theorem parse?_eq_some_iff_writes :
    parse? text = some duration ↔
      ∃ number unit, Writes text number unit ∧ unit.Counts number ∧
        duration = ⟨number * unit.length⟩ := by
  rw [parse?_eq_some_iff]
  constructor
  · rintro ⟨zeros, number, symbol, trimmedEq, inRange, isDuration⟩
    obtain ⟨unit, rfl, minutesInRange, rfl⟩ := ofUnit?_eq_some_iff.mp isDuration
    obtain ⟨before, after, textEq, blankBefore, blankAfter⟩ :=
      Text.exists_eq_append_trim text.toList
    rw [trimmedEq] at textEq
    refine ⟨number, unit, ⟨before, _, after, blankBefore, blankAfter, ?_,
      fun _ => Text.isDigit_of_mem_replicate_append, ?_, textEq⟩, ⟨inRange, minutesInRange⟩, rfl⟩
    · simp [Nat.toDigits_ne_nil]
    · exact (Text.numberOfDigits_replicate_append zeros _).trans
        (Text.numberOfDigits_toDigits number)
  · rintro ⟨number, unit, ⟨before, digits, after, blankBefore, blankAfter, notEmpty, allDigits,
      rfl, textEq⟩, ⟨inRange, minutesInRange⟩, rfl⟩
    obtain ⟨zeros, digitsEq⟩ := Text.exists_eq_replicate_append_toDigits notEmpty allDigits
    have noBlank : Text.HasNoBlank (digits ++ unit.symbol.toList) :=
      Text.hasNoBlank_append.mpr
        ⟨Text.hasNoBlank_of_all_isDigit (List.all_eq_true.mpr allDigits), unit.hasNoBlank_symbol⟩
    refine ⟨zeros, _, unit.symbol.toList, ?_, inRange,
      ofUnit?_eq_some_iff.mpr ⟨unit, rfl, minutesInRange, rfl⟩⟩
    rw [textEq, Text.trim_append_append blankBefore noBlank blankAfter]
    exact congrArg (· ++ unit.symbol.toList) digitsEq

/-- A text is read exactly if it writes a countable number of a unit, and then as that many
of the unit, in whole seconds that 64 bits hold.  So every countable number of every unit
comes back from its spelling behind any zeros. -/
theorem durations_last_as_written :
    (∀ text duration, parse? text = some duration ↔
      ∃ number unit, Writes text number unit ∧ unit.Counts number ∧
        duration = ⟨number * unit.length⟩) ∧
    (∀ text duration, parse? text = some duration → duration.wholeSeconds < 2 ^ 64) ∧
    ∀ (unit : TimeUnit) (number zeros : Nat), unit.Counts number →
      parse? (String.ofList (List.replicate zeros '0') ++ toString number ++ unit.symbol) =
        some ⟨number * unit.length⟩ := by
  refine ⟨fun text duration => parse?_eq_some_iff_writes, ?_, ?_⟩
  · intro text duration parsed
    obtain ⟨number, unit, -, counts, rfl⟩ := parse?_eq_some_iff_writes.mp parsed
    exact unit.wholeSeconds_lt counts
  · intro unit number zeros counts
    refine parse?_eq_some_iff_writes.mpr ⟨number, unit, ?_, counts, rfl⟩
    refine ⟨[], List.replicate zeros '0' ++ Nat.toDigits 10 number, [], Text.isAllBlank_nil,
      Text.isAllBlank_nil, by simp [Nat.toDigits_ne_nil],
      fun _ => Text.isDigit_of_mem_replicate_append, ?_, by simp⟩
    exact (Text.numberOfDigits_replicate_append zeros _).trans (Text.numberOfDigits_toDigits number)

/-- The largest number of minutes that can be counted, behind two zeros. -/
theorem durations_last_as_written_up_to_largest_minute :
    TimeUnit.minutes.Counts 307445734561825860 ∧
      ¬ TimeUnit.minutes.Counts 307445734561825861 ∧
      parse? (String.ofList (List.replicate 2 '0') ++ toString 307445734561825860 ++ "m") =
        some ⟨18446744073709551600000⟩ := by
  have counts : TimeUnit.minutes.Counts 307445734561825860 := by decide
  exact ⟨counts, by decide, durations_last_as_written.2.2 .minutes 307445734561825860 2 counts⟩

end Duration

end CacheRouting
