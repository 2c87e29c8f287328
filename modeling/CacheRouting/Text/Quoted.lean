import CacheRouting.Text.Hex
import CacheRouting.Text.Printable

/-!
# Quoted text in messages

A message that quotes text writes it between double quotes on one line.  Quotes,
backslashes and the common controls have short escapes; every other character
without a glyph of its own is spelled by its code point.
-/

namespace CacheRouting

namespace Text

def quoteCharacter (character : Char) : List Char :=
  match character with
  | '"' => ['\\', '"']
  | '\\' => ['\\', '\\']
  | '\n' => ['\\', 'n']
  | '\r' => ['\\', 'r']
  | '\t' => ['\\', 't']
  | '\x00' => ['\\', '0']
  | _ =>
      if isUnprintable character then
        ['\\', 'u', '\x7b'] ++ hexNumber character.toNat ++ ['\x7d']
      else
        [character]

def quote (text : String) : String :=
  String.ofList ('"' :: text.toList.flatMap quoteCharacter ++ ['"'])

end Text

end CacheRouting
