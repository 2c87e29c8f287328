import CacheRouting.Document.Toml.Text

/-!
# Writing TOML

Text is written in the simplest of the four forms that holds it without escapes,
and with escapes only when it must be.  Lists of two or more items take one line
for each item.
-/

namespace CacheRouting

namespace Document

namespace Toml

/-- Characters that no form holds unescaped: controls but tab and line feed. -/
def isCoded (character : Char) : Bool :=
  !isVisible character && character != '\n'

def hasTriple (mark : Char) : List Char → Bool
  | first :: rest =>
      (first == mark && (rest.take 2) == [mark, mark]) || hasTriple mark rest
  | [] => false

def unicodeEscape (character : Char) : List Char :=
  ['\\', 'u'] ++ (Text.hexDigits 4 character.toNat).map Char.toUpper

def escapeCommon (character : Char) : List Char :=
  match character with
  | '\x08' => ['\\', 'b']
  | '\t' => ['\\', 't']
  | '\x0c' => ['\\', 'f']
  | '\r' => ['\\', 'r']
  | '\\' => ['\\', '\\']
  | _ => if isCoded character then unicodeEscape character else [character]

def escapeOnLine (character : Char) : List Char :=
  match character with
  | '"' => ['\\', '"']
  | '\n' => ['\\', 'n']
  | _ => escapeCommon character

/-- Text between tripled double quotes, where only the third of three quotes in a
row is escaped.  The count is of the quotes just written. -/
def escapeLines : (quotes : Nat) → List Char → List Char
  | _, [] => []
  | quotes, '"' :: rest =>
      if quotes = 2 then '\\' :: '"' :: escapeLines 0 rest
      else '"' :: escapeLines (quotes + 1) rest
  | _, character :: rest => escapeCommon character ++ escapeLines 0 rest

inductive TextForm
  | basicLine
  | literalLine
  | basicLines
  | literalLines
  deriving DecidableEq

def TextForm.choose (text : List Char) : TextForm :=
  let coded := text.any isCoded
  let broken := text.contains '\n'
  let escaping := text.contains '\\'
  if !coded && !escaping && !text.contains '"' && !broken then .basicLine
  else if !coded && !text.contains '\'' && !broken then .literalLine
  else if !coded && !escaping && !hasTriple '"' text then .basicLines
  else if !coded && !hasTriple '\'' text then .literalLines
  else if broken then .basicLines
  else .basicLine

/-- The break after tripled quotes, which text with a break needs. -/
def leadingBreak (text : List Char) : List Char :=
  if text.contains '\n' then ['\n'] else []

def TextForm.write : TextForm → List Char → List Char
  | basicLine, text => '"' :: text.flatMap escapeOnLine ++ ['"']
  | literalLine, text => '\'' :: text ++ ['\'']
  | basicLines, text =>
      ['"', '"', '"'] ++ leadingBreak text ++ escapeLines 0 text ++ ['"', '"', '"']
  | literalLines, text =>
      ['\'', '\'', '\''] ++ leadingBreak text ++ text ++ ['\'', '\'', '\'']

def writeText (text : String) : List Char :=
  (TextForm.choose text.toList).write text.toList

/-- Write a key, without quotes where it needs none. -/
def writeKey (name : String) : List Char :=
  let text := name.toList
  let coded := text.any fun character => isCoded character || character == '\n'
  if !text.isEmpty && text.all isBare then text
  else if !coded && !text.contains '\\' && !text.contains '"' then
    TextForm.basicLine.write text
  else if !coded && !text.contains '\'' then TextForm.literalLine.write text
  else TextForm.basicLine.write text

def writeList : List (List Char) → List Char
  | [] => ['[', ']']
  | [item] => '[' :: item ++ [']']
  | items => ['[', '\n'] ++ items.flatMap (fun item => "    ".toList ++ item ++ [',', '\n']) ++ [']']

def largestInteger : Nat := Int64.maxValue.toInt.toNat

def writeInteger? (number : Nat) : Option (List Char) :=
  if number ≤ largestInteger then some (Text.digitsOfNumber number) else none

def writeField (key value : List Char) : List Char :=
  key ++ [' ', '=', ' '] ++ value ++ ['\n']

def writeHeader (path : List (List Char)) : List Char :=
  '[' :: ['.'].intercalate path ++ [']', '\n']

end Toml

end Document

end CacheRouting
