import CacheRouting.Journal.Event
import CacheRouting.Text.Alphanumeric
import CacheRouting.Text.Blank
import CacheRouting.Text.Digits

/-!
# Filters of the main log

A filter is a list of directives.  Each sets the least level for targets that
start with a given text, or for all targets.  Among the directives that fit an
event the one with the longest target decides; where none fits, nothing is
logged.
-/

namespace CacheRouting

/-- The least level for targets that start in the same way. -/
structure Directive where
  /-- How the targets start; a directive without it is for all targets. -/
  target : Option String
  /-- The least level that is logged; without it nothing is. -/
  least : Option Level
  deriving DecidableEq, Repr

namespace Directive

def levelOfNumber? : Nat → Option (Option Level)
  | 0 => some none
  | 1 => some (some .error)
  | 2 => some (some .warn)
  | 3 => some (some .info)
  | 4 => some (some .debug)
  | 5 => some (some .trace)
  | _ => none

def levelOfName? : String → Option (Option Level)
  | "off" => some none
  | "error" => some (some .error)
  | "warn" => some (some .warn)
  | "info" => some (some .info)
  | "debug" => some (some .debug)
  | "trace" => some (some .trace)
  | _ => none

/-- How the level of a directive is spelled: by number, or by name in any case. -/
def readLevel? (word : List Char) : Option (Option Level) :=
  match Text.readUnsigned? UInt64.size word with
  | some number => levelOfNumber? number
  | none => levelOfName? (String.ofList (word.map Char.toLower))

def canBegin (character : Char) : Bool :=
  character == '_' || character == ':' || character == '-' || Text.isAlphanumeric character

/-- Read a directive without an equals sign: a level for all targets, or a target of which
everything is logged.  Blanks belong to the target. -/
def readBare (characters : List Char) : Directive :=
  match readLevel? characters with
  | some least => ⟨none, least⟩
  | none => ⟨some (String.ofList characters), some .trace⟩

/-- Read a directive with an equals sign: a target and its level, which is the lowest
where none is given. -/
def readPair? (characters : List Char) : Option Directive :=
  let target := String.ofList (characters.takeWhile (· ≠ '='))
  match (characters.dropWhile (· ≠ '=')).drop 1 with
  | [] => some ⟨some target, some .trace⟩
  | level => (readLevel? level).map fun least => ⟨some target, least⟩

/-- Read a directive that is not empty.  Blanks may stand in front of it only where no
level is set.  This reads fewer directives than operators may write elsewhere: those with
brackets, which narrow a target to spans of a name or to events with certain fields, are
refused here, though they are well formed. -/
def read? (characters : List Char) : Option Directive :=
  match Text.trim characters with
  | [] => none
  | first :: _ =>
      if !canBegin first || (characters.takeWhile (· ≠ '=')).contains '[' then none
      else if !characters.contains '=' then some (readBare characters)
      else if characters.head?.any Text.isBlank then none
      else readPair? characters

def fits (directive : Directive) (target : String) : Bool :=
  match directive.target with
  | none => true
  | some start => start.toList.isPrefixOf target.toList

def specificity (directive : Directive) : Nat :=
  match directive.target with
  | none => 0
  | some start => start.toList.length + 1

def admits (directive : Directive) (level : Level) : Bool :=
  match directive.least with
  | none => false
  | some least => least.rank ≤ level.rank

end Directive

structure Filter where
  directives : List Directive
  deriving DecidableEq, Repr

namespace Filter

def splitCommas : List Char → List (List Char)
  | [] => [[]]
  | ',' :: rest => [] :: splitCommas rest
  | character :: rest =>
      match splitCommas rest with
      | piece :: pieces => (character :: piece) :: pieces
      | [] => [[character]]

def read? (text : String) : Option Filter :=
  (((splitCommas text.toList).filter (!·.isEmpty)).mapM Directive.read?).map Filter.mk

/-- The later of two directives, unless the earlier names targets more closely. -/
def closer (best : Option Directive) (directive : Directive) : Option Directive :=
  match best with
  | none => some directive
  | some earlier =>
      if earlier.specificity ≤ directive.specificity then some directive else some earlier

def deciding? (filter : Filter) (target : String) : Option Directive :=
  (filter.directives.filter (·.fits target)).foldl closer none

def enables (filter : Filter) (target : String) (level : Level) : Bool :=
  match filter.deciding? target with
  | none => false
  | some directive => directive.admits level

end Filter

end CacheRouting
