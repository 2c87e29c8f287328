/-!
# Hexadecimal digits

Digits are written in lower case and read in either case.
-/

namespace CacheRouting

namespace Text

def hexValue? (character : Char) : Option Nat :=
  let code := character.toNat
  if 0x30 ≤ code ∧ code ≤ 0x39 then some (code - 0x30)
  else if 0x61 ≤ code ∧ code ≤ 0x66 then some (code - 0x57)
  else if 0x41 ≤ code ∧ code ≤ 0x46 then some (code - 0x37)
  else none

def hexDigit (value : Nat) : Char :=
  if value < 10 then Char.ofNat (0x30 + value) else Char.ofNat (0x57 + value)

/-- The low `width` hexadecimal digits of a number, the highest first. -/
def hexDigits : (width : Nat) → (number : Nat) → List Char
  | 0, _ => []
  | width + 1, number => hexDigits width (number / 16) ++ [hexDigit (number % 16)]

def hexNumber (number : Nat) : List Char :=
  hexDigits (max 1 ((number.log2 + 4) / 4)) number

end Text

end CacheRouting
