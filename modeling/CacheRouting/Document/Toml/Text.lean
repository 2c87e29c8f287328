import CacheRouting.Text.Digits
import CacheRouting.Text.Hex

/-!
# Text and keys in TOML

Text is written between single or double quotes, on one line or between tripled
quotes on several.  Double quotes allow escapes.  Each reader gets the
characters after the opening quotes and returns the text with the characters
after the closing ones.  Line breaks are single line feeds here.
-/

namespace CacheRouting

namespace Document

namespace Toml

/-- What a reader returns: a value and the characters after it. -/
abbrev Reading (Value : Type) := Option (Value × List Char)

def prepend (character : Option Char) (reading : Reading (List Char)) :
    Reading (List Char) :=
  match character, reading with
  | some character, some (text, rest) => some (character :: text, rest)
  | _, _ => none

def isSpace (character : Char) : Bool := character == ' ' || character == '\t'

def skipSpace (characters : List Char) : List Char := characters.dropWhile isSpace

/-- Characters that may stand in a document unescaped: no control but the tab. -/
def isVisible (character : Char) : Bool :=
  character == '\t' || (' ' ≤ character && character != '\x7f')

/-- Characters that stand for themselves between double quotes. -/
def isBasic (character : Char) : Bool :=
  isVisible character && character != '"' && character != '\\'

/-- Characters that stand for themselves between single quotes. -/
def isLiteral (character : Char) : Bool :=
  isVisible character && character != '\''

def simpleEscape? : Char → Option Char
  | 'b' => some '\x08'
  | 't' => some '\t'
  | 'n' => some '\n'
  | 'f' => some '\x0c'
  | 'r' => some '\r'
  | '"' => some '"'
  | '\\' => some '\\'
  | _ => none

def scalarOfHex? (digits : List Char) : Option Char :=
  match digits.mapM Text.hexValue? with
  | some values =>
      let code := values.foldl (fun number value => 16 * number + value) 0
      if code.isValidChar then some (Char.ofNat code) else none
  | none => none

def basicText : List Char → Reading (List Char)
  | [] => none
  | '"' :: rest => some ([], rest)
  | '\\' :: 'u' :: a :: b :: c :: d :: rest =>
      prepend (scalarOfHex? [a, b, c, d]) (basicText rest)
  | '\\' :: 'U' :: a :: b :: c :: d :: e :: f :: g :: h :: rest =>
      prepend (scalarOfHex? [a, b, c, d, e, f, g, h]) (basicText rest)
  | '\\' :: letter :: rest => prepend (simpleEscape? letter) (basicText rest)
  | character :: rest =>
      if isBasic character then prepend (some character) (basicText rest) else none

def literalText : List Char → Reading (List Char)
  | [] => none
  | '\'' :: rest => some ([], rest)
  | character :: rest =>
      if isLiteral character then prepend (some character) (literalText rest) else none

inductive LineJoin
  /-- No backslash is open. -/
  | closed
  /-- A backslash ends the line; only blanks may precede the break. -/
  | beforeBreak
  /-- The break is passed; blanks and further breaks are dropped. -/
  | afterBreak
  deriving DecidableEq

/-- Text between tripled double quotes.  A backslash at the end of a line joins it
with the next.  Up to two quotes may stand before the closing ones. -/
def basicLines : LineJoin → List Char → Reading (List Char)
  | _, [] => none
  | .beforeBreak, character :: rest =>
      if isSpace character then basicLines .beforeBreak rest
      else if character = '\n' then basicLines .afterBreak rest
      else none
  | .afterBreak, ' ' :: rest => basicLines .afterBreak rest
  | .afterBreak, '\t' :: rest => basicLines .afterBreak rest
  | .afterBreak, '\n' :: rest => basicLines .afterBreak rest
  | _, '"' :: '"' :: '"' :: '"' :: '"' :: rest => some (['"', '"'], rest)
  | _, '"' :: '"' :: '"' :: '"' :: rest => some (['"'], rest)
  | _, '"' :: '"' :: '"' :: rest => some ([], rest)
  | _, '\\' :: 'u' :: a :: b :: c :: d :: rest =>
      prepend (scalarOfHex? [a, b, c, d]) (basicLines .closed rest)
  | _, '\\' :: 'U' :: a :: b :: c :: d :: e :: f :: g :: h :: rest =>
      prepend (scalarOfHex? [a, b, c, d, e, f, g, h]) (basicLines .closed rest)
  | _, '\\' :: '\n' :: rest => basicLines .afterBreak rest
  | _, '\\' :: ' ' :: rest => basicLines .beforeBreak rest
  | _, '\\' :: '\t' :: rest => basicLines .beforeBreak rest
  | _, '\\' :: letter :: rest => prepend (simpleEscape? letter) (basicLines .closed rest)
  | _, character :: rest =>
      if isBasic character || character == '"' || character == '\n' then
        prepend (some character) (basicLines .closed rest)
      else none

def literalLines : List Char → Reading (List Char)
  | [] => none
  | '\'' :: '\'' :: '\'' :: '\'' :: '\'' :: rest => some (['\'', '\''], rest)
  | '\'' :: '\'' :: '\'' :: '\'' :: rest => some (['\''], rest)
  | '\'' :: '\'' :: '\'' :: rest => some ([], rest)
  | character :: rest =>
      if isVisible character || character == '\n' then
        prepend (some character) (literalLines rest)
      else none

def dropBreak : List Char → List Char
  | '\n' :: rest => rest
  | characters => characters

def quotedText? : List Char → Reading (List Char)
  | '"' :: '"' :: '"' :: rest => basicLines .closed (dropBreak rest)
  | '"' :: rest => basicText rest
  | '\'' :: '\'' :: '\'' :: rest => literalLines (dropBreak rest)
  | '\'' :: rest => literalText rest
  | _ => none

/-- Characters of a key without quotes. -/
def isBare (character : Char) : Bool :=
  character.isAlphanum || character == '_' || character == '-'

def simpleKey? : List Char → Reading String
  | '"' :: rest => (basicText rest).map fun (text, rest) => (String.ofList text, rest)
  | '\'' :: rest => (literalText rest).map fun (text, rest) => (String.ofList text, rest)
  | characters =>
      let name := characters.takeWhile isBare
      if name.isEmpty then none
      else some (String.ofList name, characters.dropWhile isBare)

/-- A key of at most `limit` parts joined by dots, with the blanks around it. -/
def dottedKey? : (limit : Nat) → List Char → Reading (List String)
  | 0, _ => none
  | limit + 1, characters =>
      match simpleKey? (skipSpace characters) with
      | none => none
      | some (name, rest) =>
          match skipSpace rest with
          | '.' :: rest =>
              match dottedKey? limit rest with
              | some (names, rest) => some (name :: names, rest)
              | none => none
          | rest => some ([name], rest)

end Toml

end Document

end CacheRouting
