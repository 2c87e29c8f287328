import CacheRouting.Text.Blank
import CacheRouting.Text.Digits

/-!
# Durations

A duration is written as a number of seconds, milliseconds or minutes, with
blanks allowed around it.  A bare number counts seconds.
-/

namespace CacheRouting

/-- A span of time, exact to the millisecond. -/
structure Duration where
  milliseconds : Nat
  deriving DecidableEq, Repr

namespace Duration

def ofSeconds (seconds : Nat) : Duration := ⟨1000 * seconds⟩

def wholeSeconds (duration : Duration) : Nat := duration.milliseconds / 1000

/-- Numbers of seconds and milliseconds stay below this bound. -/
def countBound : Nat := UInt64.size

def ofUnit? (number : Nat) : List Char → Option Duration
  | [] => some (ofSeconds number)
  | ['s'] => some (ofSeconds number)
  | ['m', 's'] => some ⟨number⟩
  | ['m'] => if number * 60 < countBound then some (ofSeconds (number * 60)) else none
  | _ => none

def parse? (text : String) : Option Duration :=
  let trimmed := Text.trim text.toList
  match Text.readDigits? countBound (trimmed.takeWhile Char.isDigit) with
  | some number => ofUnit? number (trimmed.dropWhile Char.isDigit)
  | none => none

end Duration

end CacheRouting
