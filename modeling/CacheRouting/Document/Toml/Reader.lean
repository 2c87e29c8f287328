import CacheRouting.Document.Toml.Number
import CacheRouting.Document.Toml.Table

/-!
# Reading TOML documents

A document is a sequence of lines: table headers, keys with values, comments and
empty lines.  Reading fails as a whole at the first thing that is not allowed.
Values nest to a bounded depth and keys have a bounded number of parts.
-/

namespace CacheRouting

namespace Document

namespace Toml

/-- Values nest, and keys have parts, fewer times than this. -/
def nestingLimit : Nat := 80

def splitLast? : List String → Option (List String × String)
  | [] => none
  | [name] => some ([], name)
  | name :: rest => (splitLast? rest).map fun (path, last) => (name :: path, last)

/-- The characters after blanks, line breaks and comments.  The flag says whether a
comment is open; a control character in a comment ends the skipping. -/
def skipLines : (inComment : Bool) → List Char → List Char
  | _, [] => []
  | false, character :: rest =>
      if isSpace character || character == '\n' then skipLines false rest
      else if character = '#' then skipLines true rest
      else character :: rest
  | true, character :: rest =>
      if character = '\n' then skipLines false rest
      else if isVisible character then skipLines true rest
      else character :: rest

/-- The items of a list up to its closing bracket.  There are at most `limit`. -/
def listItems? (item : List Char → Reading Value) :
    (limit : Nat) → List Char → Reading (List Value)
  | 0, _ => none
  | limit + 1, characters =>
      match skipLines false characters with
      | ']' :: rest => some ([], rest)
      | characters =>
          match item characters with
          | none => none
          | some (value, rest) =>
              match skipLines false rest with
              | ']' :: rest => some ([value], rest)
              | ',' :: rest =>
                  (listItems? item limit rest).map fun (values, rest) => (value :: values, rest)
              | _ => none

def keyValue? (item : List Char → Reading Value) (characters : List Char) :
    Reading (List String × Value) :=
  match dottedKey? (nestingLimit - 1) characters with
  | some (names, '=' :: rest) =>
      (item (skipSpace rest)).map fun (value, rest) => ((names, value), rest)
  | _ => none

/-- The fields of a table in braces, after the opening brace or a comma. -/
def braceFields? (item : List Char → Reading Value) :
    (limit : Nat) → Fields → List Char → Reading Fields
  | 0, _, _ => none
  | limit + 1, fields, characters =>
      match keyValue? item characters with
      | none => none
      | some ((names, value), rest) =>
          match splitLast? names with
          | none => none
          | some (path, name) =>
              match fields.define? path name value false with
              | none => none
              | some fields =>
                  match skipSpace rest with
                  | '\x7d' :: rest => some (fields, rest)
                  | ',' :: rest => braceFields? item limit fields rest
                  | _ => none

/-- A value whose lists and tables nest at most `depth` deep. -/
def value? : (depth : Nat) → List Char → Reading Value
  | depth, characters =>
      match characters with
      | '"' :: _ | '\'' :: _ =>
          (quotedText? characters).map fun (text, rest) => (.text (String.ofList text), rest)
      | 't' :: 'r' :: 'u' :: 'e' :: rest => some (.boolean true, rest)
      | 'f' :: 'a' :: 'l' :: 's' :: 'e' :: rest => some (.boolean false, rest)
      | '[' :: rest =>
          match depth with
          | 0 => none
          | depth + 1 =>
              (listItems? (value? depth) characters.length rest).map fun (items, rest) =>
                (.list items, rest)
      | '\x7b' :: rest =>
          match depth with
          | 0 => none
          | depth + 1 =>
              match skipSpace rest with
              | '\x7d' :: rest => some (.table [], rest)
              | rest =>
                  (braceFields? (value? depth) characters.length [] rest).map
                    fun (fields, rest) => (.table (Item.fieldValues fields), rest)
      | _ => momentOrNumber? characters

def afterComment? (characters : List Char) : Option (List Char) :=
  match characters.dropWhile isVisible with
  | [] => some []
  | '\n' :: rest => some rest
  | _ => none

/-- The characters of the next line, where only blanks and a comment remain. -/
def afterLine? (characters : List Char) : Option (List Char) :=
  match skipSpace characters with
  | [] => some []
  | '\n' :: rest => some rest
  | '#' :: rest => afterComment? rest
  | _ => none

/-- A document read in part: all tables so far, and the path of the open one. -/
structure Progress where
  fields : Fields
  opened : List String

def line? (progress : Progress) (characters : List Char) : Option (Progress × List Char) :=
  match characters with
  | '#' :: rest => (afterComment? rest).map (progress, ·)
  | '[' :: '[' :: rest =>
      match dottedKey? (nestingLimit - 1) rest with
      | some (names, ']' :: ']' :: rest) =>
          match splitLast? names, afterLine? rest with
          | some (path, name), some rest =>
              (progress.fields.openRow? path name).map fun fields => (⟨fields, names⟩, rest)
          | _, _ => none
      | _ => none
  | '[' :: rest =>
      match dottedKey? (nestingLimit - 1) rest with
      | some (names, ']' :: rest) =>
          match splitLast? names, afterLine? rest with
          | some (path, name), some rest =>
              (progress.fields.openTable? path name).map fun fields => (⟨fields, names⟩, rest)
          | _, _ => none
      | _ => none
  | characters =>
      match keyValue? (value? (nestingLimit - 1)) characters with
      | some ((names, value), rest) =>
          match splitLast? names, afterLine? rest with
          | some (path, name), some rest =>
              (progress.fields.defineIn? progress.opened path name value).map
                fun fields => (⟨fields, progress.opened⟩, rest)
          | _, _ => none
      | none => none

def lines? : (limit : Nat) → Progress → List Char → Option Fields
  | 0, _, _ => none
  | limit + 1, progress, characters =>
      match skipSpace characters with
      | [] => some progress.fields
      | '\n' :: rest => lines? limit progress rest
      | characters =>
          match line? progress characters with
          | some (progress, rest) => lines? limit progress rest
          | none => none

def unifyBreaks : List Char → List Char
  | '\r' :: '\n' :: rest => '\n' :: unifyBreaks rest
  | character :: rest => character :: unifyBreaks rest
  | [] => []

def dropMark : List Char → List Char
  | '\ufeff' :: rest => rest
  | characters => characters

/-- Read a document as the fields of its outermost table. -/
def read? (text : String) : Option (List (String × Value)) :=
  let characters := unifyBreaks (dropMark text.toList)
  (lines? (characters.length + 1) ⟨[], []⟩ characters).map Item.fieldValues

end Toml

end Document

end CacheRouting
