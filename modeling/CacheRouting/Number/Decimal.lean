import CacheRouting.Text.Digits

/-!
# Decimal numbers in text

A decimal number is read exactly, as a sign, a row of digits and a power of
ten, and rounded to the nearest double once at the end.  Infinity and the
undefined value have spellings of their own, in any case.
-/

namespace CacheRouting

/-- The number `mantissa * 10 ^ exponent`, with its sign. -/
structure Decimal where
  negative : Bool
  mantissa : Nat
  exponent : Int
  deriving DecidableEq, Repr

namespace Decimal

/-- The double nearest to the number.  Powers of ten that no double can reach
are settled before any power is computed. -/
def toFloat (decimal : Decimal) : Float :=
  let magnitude : Float :=
    if decimal.mantissa = 0 then 0
    else
      let digits : Int := (Nat.toDigits 10 decimal.mantissa).length
      if digits + decimal.exponent > 400 then Float.ofBits 0x7ff0000000000000
      else if digits + decimal.exponent < -400 then 0
      else Float.ofScientific decimal.mantissa (decimal.exponent < 0)
        decimal.exponent.natAbs
  if decimal.negative then -magnitude else magnitude

end Decimal

inductive NumberText
  | decimal (value : Decimal)
  | infinite (negative : Bool)
  | undefined
  deriving DecidableEq, Repr

namespace NumberText

def splitSign : List Char → Bool × List Char
  | '-' :: rest => (true, rest)
  | '+' :: rest => (false, rest)
  | characters => (false, characters)

def readExponent? : List Char → Option Int
  | [] => some 0
  | mark :: rest =>
      if mark = 'e' ∨ mark = 'E' then
        let (negative, digits) := splitSign rest
        if digits ≠ [] ∧ digits.all Char.isDigit then
          some (if negative then -(Text.numberOfDigits digits : Int) else Text.numberOfDigits digits)
        else none
      else none

def readDecimal? (negative : Bool) (characters : List Char) : Option Decimal :=
  let whole := characters.takeWhile Char.isDigit
  let rest := characters.dropWhile Char.isDigit
  let (fraction, rest) :=
    match rest with
    | '.' :: rest => (rest.takeWhile Char.isDigit, rest.dropWhile Char.isDigit)
    | rest => ([], rest)
  if whole.isEmpty && fraction.isEmpty then none
  else do
    let exponent ← readExponent? rest
    pure ⟨negative, Text.numberOfDigits (whole ++ fraction), exponent - fraction.length⟩

def read? (characters : List Char) : Option NumberText :=
  let (negative, unsigned) := splitSign characters
  let word := unsigned.map Char.toLower
  if word = "inf".toList ∨ word = "infinity".toList then some (.infinite negative)
  else if word = "nan".toList then some .undefined
  else (readDecimal? negative unsigned).map .decimal

def toFloat : NumberText → Float
  | .decimal value => value.toFloat
  | .infinite negative => Float.ofBits (if negative then 0xfff0000000000000 else 0x7ff0000000000000)
  | .undefined => Float.ofBits 0x7ff8000000000000

end NumberText

end CacheRouting
