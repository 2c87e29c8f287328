import CacheRouting.Dictionary
import CacheRouting.Text.Hex

/-!
# Answers in JSON

Answers to queries are lists and dictionaries of text, written with one item on
each line and two blanks of indentation for each level.
-/

namespace CacheRouting

namespace Document

def escapeJson (character : Char) : List Char :=
  match character with
  | '"' => ['\\', '"']
  | '\\' => ['\\', '\\']
  | '\x08' => ['\\', 'b']
  | '\x0c' => ['\\', 'f']
  | '\n' => ['\\', 'n']
  | '\r' => ['\\', 'r']
  | '\t' => ['\\', 't']
  | _ =>
      if character.toNat < 0x20 then ['\\', 'u'] ++ Text.hexDigits 4 character.toNat
      else [character]

def quoteJson (text : String) : List Char :=
  '"' :: text.toList.flatMap escapeJson ++ ['"']

def prettyItems (opening closing : Char) (level : Nat) (items : List (List Char)) : List Char :=
  if items.isEmpty then [opening, closing]
  else
    let indent := List.replicate (2 * (level + 1)) ' '
    [opening, '\n'] ++ [',', '\n'].intercalate (items.map (indent ++ ·)) ++
      '\n' :: List.replicate (2 * level) ' ' ++ [closing]

def prettyTexts (level : Nat) (texts : List String) : List Char :=
  prettyItems '[' ']' level (texts.map quoteJson)

def prettyGroups (groups : List (List String)) : String :=
  String.ofList (prettyItems '[' ']' 0 (groups.map (prettyTexts 1)))

def prettyDictionary (dictionary : Dictionary (List String)) : String :=
  String.ofList (prettyItems '\x7b' '\x7d' 0 (dictionary.entries.map fun entry =>
    quoteJson entry.1 ++ [':', ' '] ++ prettyTexts 1 entry.2))

end Document

end CacheRouting
