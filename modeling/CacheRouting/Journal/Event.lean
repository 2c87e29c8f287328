/-!
# Events

What happens is told in events.  An event has a level, names the part of the
program it comes from, and carries named texts and a message.
-/

namespace CacheRouting

inductive Level
  | trace
  | debug
  | info
  | warn
  | error
  deriving DecidableEq, Repr

namespace Level

/-- The place of a level among all levels, the least important first. -/
def rank : Level → Nat
  | trace => 0
  | debug => 1
  | info => 2
  | warn => 3
  | error => 4

def name : Level → String
  | trace => "TRACE"
  | debug => "DEBUG"
  | info => "INFO"
  | warn => "WARN"
  | error => "ERROR"

end Level

structure Event where
  level : Level
  target : String
  message : String
  fields : List (String × String)
  deriving DecidableEq, Repr

/-- Events in the order in which they happened, kept from a least level on. -/
structure Journal where
  /-- The least level kept; nothing is kept without one. -/
  least : Option Level
  latestFirst : List Event

namespace Journal

def empty (least : Option Level) : Journal := ⟨least, []⟩

def keeps (journal : Journal) (level : Level) : Bool :=
  match journal.least with
  | some least => least.rank ≤ level.rank
  | none => false

def add (journal : Journal) (event : Event) : Journal :=
  if journal.keeps event.level then
    { journal with latestFirst := event :: journal.latestFirst }
  else journal

def events (journal : Journal) : List Event :=
  journal.latestFirst.reverse

end Journal

end CacheRouting
