import CacheRouting.Bucket
import CacheRouting.Number.Decimal
import CacheRouting.Text.Blank

/-!
# Bucket listings

Hosts are asked for the buckets they hold through administrative keys, each of
which names a bucket but for its last hexadecimal digit.  The answer lists
records such as `a/ 0 1234`: a name that starts with that digit and a slash,
flags, and a count.  Anything else in a listing is ignored.
-/

namespace CacheRouting

namespace Listing

/-- The keys that together ask for all of `count` buckets. -/
def probeKeys (count : Nat) : List String :=
  if Bucket.digitCount count < 2 then ["@"]
  else
    let digits := Bucket.digitCount count - 1
    (List.range (1 <<< (4 * digits))).map fun index =>
      String.ofList ('@' :: Text.hexDigits digits index)

/-- Split at a separator into at most `limit` pieces; the last piece holds all that
remains, separators included. -/
def splitAtMost (separator : Char) : (limit : Nat) → List Char → List (List Char)
  | 0, _ => []
  | 1, characters => [characters]
  | limit + 2, characters =>
      match characters.dropWhile (· != separator) with
      | [] => [characters]
      | _ :: rest =>
          characters.takeWhile (· != separator) :: splitAtMost separator (limit + 1) rest

/-- The number of pieces of a listing that are considered. -/
def pieceLimit : Nat := 17

structure Record where
  name : String
  count : Float
  deriving DecidableEq

/-- A count: a finite number that is not negative. -/
def readCount? (characters : List Char) : Option Float :=
  match NumberText.read? (Text.trim characters) with
  | some number =>
      let count := number.toFloat
      if count.isFinite && 0 ≤ count then some count else none
  | none => none

/-- Whether the text has one byte before a slash. -/
def startsWithDigitAndSlash : List Char → Bool
  | first :: '/' :: _ => first.toNat < 0x80
  | _ => false

def readRecord? (piece : List Char) : Option Record :=
  if startsWithDigitAndSlash piece then
    match splitAtMost ' ' 3 piece with
    | [name, _, count] =>
        (readCount? count).map fun count => ⟨String.ofList name, count⟩
    | _ => none
  else none

def parse (body : String) : List Record :=
  (splitAtMost '\n' pieceLimit body.toList).filterMap readRecord?

end Listing

end CacheRouting
