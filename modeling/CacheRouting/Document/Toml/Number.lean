import CacheRouting.Document.Toml.Text
import CacheRouting.Document.Value

/-!
# Numbers and moments in TOML

Digits may be grouped by single underscores.  A decimal number has no leading
zeros; a point or an exponent makes it a float.  Moments are dates, times of day
or both, and are only checked, since no setting holds one.
-/

namespace CacheRouting

namespace Document

namespace Toml

/-- The digits of a group and the characters after it, given that the first digit
has been seen to be there. -/
def digitRun (isDigit : Char → Bool) : List Char → List Char × List Char
  | [] => ([], [])
  | '_' :: digit :: rest =>
      if isDigit digit then
        let (digits, rest) := digitRun isDigit rest
        (digit :: digits, rest)
      else ([], '_' :: digit :: rest)
  | digit :: rest =>
      if isDigit digit then
        let (digits, rest) := digitRun isDigit rest
        (digit :: digits, rest)
      else ([], digit :: rest)

/-- A row of digits with optional underscores between them. -/
def digits? (isDigit : Char → Bool) : List Char → Reading (List Char)
  | digit :: rest =>
      if isDigit digit then some (digitRun isDigit (digit :: rest)) else none
  | [] => none

/-- The whole part of a decimal number, which has no leading zeros. -/
def wholePart? : List Char → Reading (List Char)
  | '0' :: rest => some (['0'], rest)
  | characters => digits? Char.isDigit characters

def fraction? : List Char → Option (Option (List Char) × List Char)
  | '.' :: rest =>
      match digits? Char.isDigit rest with
      | some (digits, rest) => some (some digits, rest)
      | none => none
  | characters => some (none, characters)

def exponent? : List Char → Option (Option Int × List Char)
  | mark :: rest =>
      if mark = 'e' ∨ mark = 'E' then
        let (negative, unsigned) := NumberText.splitSign rest
        match digits? Char.isDigit unsigned with
        | some (digits, rest) =>
            let size : Int := Text.numberOfDigits digits
            some (some (if negative then -size else size), rest)
        | none => none
      else some (none, mark :: rest)
  | [] => some (none, [])

def integerInRange? (value : Int) : Option Value :=
  if Int64.minValue.toInt ≤ value ∧ value ≤ Int64.maxValue.toInt then some (.integer value)
  else none

/-- A float, unless it is so large that it would become infinite. -/
def finiteFloat? (decimal : Decimal) : Option Value :=
  if !decimal.negative && decimal.toFloat.isInf then none
  else some (.number (.decimal decimal))

def decimalNumber? (negative : Bool) (characters : List Char) : Reading Value :=
  match wholePart? characters with
  | none => none
  | some (whole, rest) =>
      match fraction? rest with
      | none => none
      | some (fraction, rest) =>
          match exponent? rest with
          | none => none
          | some (exponent, rest) =>
              let value :=
                if fraction.isNone && exponent.isNone then
                  let size : Int := Text.numberOfDigits whole
                  integerInRange? (if negative then -size else size)
                else
                  let places := fraction.getD []
                  finiteFloat?
                    ⟨negative, Text.numberOfDigits (whole ++ places),
                      exponent.getD 0 - places.length⟩
              value.map (·, rest)

def basedInteger? (base : Nat) (characters : List Char) : Reading Value :=
  let valueOf (digit : Char) : Nat := (Text.hexValue? digit).getD base
  match digits? (fun digit => valueOf digit < base) characters with
  | none => none
  | some (digits, rest) =>
      let size := digits.foldl (fun number digit => base * number + valueOf digit) 0
      (integerInRange? size).map (·, rest)

def number? (characters : List Char) : Reading Value :=
  match characters with
  | '0' :: 'x' :: rest => basedInteger? 16 rest
  | '0' :: 'o' :: rest => basedInteger? 8 rest
  | '0' :: 'b' :: rest => basedInteger? 2 rest
  | _ =>
      let (negative, unsigned) := NumberText.splitSign characters
      match unsigned with
      | 'i' :: 'n' :: 'f' :: rest => some (.number (.infinite negative), rest)
      | 'n' :: 'a' :: 'n' :: rest => some (.number .undefined, rest)
      | _ => decimalNumber? negative unsigned

def fixedDigits? (count : Nat) (characters : List Char) : Reading Nat :=
  let digits := characters.take count
  if digits.length = count ∧ digits.all Char.isDigit then
    some (Text.numberOfDigits digits, characters.drop count)
  else none

def daysInMonth (year month : Nat) : Nat :=
  match month with
  | 2 => if year % 4 = 0 ∧ (year % 100 ≠ 0 ∨ year % 400 = 0) then 29 else 28
  | 4 | 6 | 9 | 11 => 30
  | _ => 31

def afterDate? (characters : List Char) : Option (List Char) :=
  match fixedDigits? 4 characters with
  | some (year, '-' :: rest) =>
      match fixedDigits? 2 rest with
      | some (month, '-' :: rest) =>
          match fixedDigits? 2 rest with
          | some (day, rest) =>
              if 1 ≤ month ∧ month ≤ 12 ∧ 1 ≤ day ∧ day ≤ daysInMonth year month then some rest
              else none
          | none => none
      | _ => none
  | _ => none

def afterMinute? (characters : List Char) : Option (List Char) :=
  match fixedDigits? 2 characters with
  | some (hour, ':' :: rest) =>
      match fixedDigits? 2 rest with
      | some (minute, rest) => if hour ≤ 23 ∧ minute ≤ 59 then some rest else none
      | none => none
  | _ => none

/-- The characters after a time of day, which has seconds and may have parts of
a second. -/
def afterTime? (characters : List Char) : Option (List Char) :=
  match afterMinute? characters with
  | some (':' :: rest) =>
      match fixedDigits? 2 rest with
      | some (second, rest) =>
          if second ≤ 60 then
            match rest with
            | '.' :: digit :: rest =>
                if digit.isDigit then some (rest.dropWhile Char.isDigit)
                else some ('.' :: digit :: rest)
            | rest => some rest
          else none
      | none => none
  | _ => none

def afterOffset (characters : List Char) : List Char :=
  match characters with
  | 'Z' :: rest => rest
  | 'z' :: rest => rest
  | '+' :: rest => (afterMinute? rest).getD characters
  | '-' :: rest => (afterMinute? rest).getD characters
  | _ => characters

def afterMoment? (characters : List Char) : Option (List Char) :=
  match afterDate? characters with
  | some (mark :: rest) =>
      if mark = 'T' ∨ mark = 't' ∨ mark = ' ' then
        match afterTime? rest with
        | some rest => some (afterOffset rest)
        | none => some (mark :: rest)
      else some (mark :: rest)
  | some [] => some []
  | none => afterTime? characters

def momentOrNumber? (characters : List Char) : Reading Value :=
  match afterMoment? characters with
  | some rest => some (.moment, rest)
  | none => number? characters

end Toml

end Document

end CacheRouting
