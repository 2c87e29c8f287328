/-!
# Unsigned decimal numbers

A number is read from ASCII digits, after an optional plus sign where the
reader allows one, and must lie below a bound.  Leading zeros do not matter.
-/

namespace CacheRouting

namespace Text

def numberOfDigits (digits : List Char) : Nat :=
  digits.foldl (fun number digit => 10 * number + (digit.toNat - 0x30)) 0

def digitsOfNumber (number : Nat) : List Char :=
  Nat.toDigits 10 number

/-- Read a non-empty row of digits as a number below the bound. -/
def readDigits? (bound : Nat) (digits : List Char) : Option Nat :=
  if digits ≠ [] ∧ digits.all Char.isDigit ∧ numberOfDigits digits < bound then
    some (numberOfDigits digits)
  else
    none

def dropPlus : List Char → List Char
  | '+' :: rest => rest
  | characters => characters

/-- Read a number below the bound, allowing one plus sign before the digits. -/
def readUnsigned? (bound : Nat) (characters : List Char) : Option Nat :=
  readDigits? bound (dropPlus characters)

end Text

end CacheRouting
