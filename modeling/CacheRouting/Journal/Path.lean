import CacheRouting.Text.Utf8

/-!
# Paths

A path is a text of names with slashes between them.  A slash in front makes it
start at the root; slashes behind say that it is meant to lead to a directory.
One dot stands for the directory itself, two dots for the one that holds it.
-/

namespace CacheRouting

structure StoragePath where
  /-- Whether the path starts at the root. -/
  fromRoot : Bool
  /-- The names in the order in which they are followed; none is empty. -/
  names : List String
  /-- Whether slashes follow the last name. -/
  endsInSlash : Bool
  deriving DecidableEq, Repr

namespace StoragePath

def splitSlashes : List Char → List (List Char)
  | [] => [[]]
  | '/' :: rest => [] :: splitSlashes rest
  | character :: rest =>
      match splitSlashes rest with
      | name :: names => (character :: name) :: names
      | [] => [[character]]

def ofText (text : String) : StoragePath where
  fromRoot := text.toList.head? == some '/'
  names := ((splitSlashes text.toList).filter (!·.isEmpty)).map String.ofList
  endsInSlash := text.toList.getLast? == some '/'

def isDots (name : String) : Bool := name == "." || name == ".."

/-- The directory that a name leads to from another, if it leads to one at all.  What
holds the root is the root. -/
def enter (directory : List String) (name : String) : List String :=
  if name = "." then directory
  else if name = ".." then directory.dropLast
  else directory ++ [name]

def longestName : Nat := 255

def longestText : Nat := 4095

end StoragePath

end CacheRouting
