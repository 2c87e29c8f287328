import CacheRouting.Journal.Storage
import CacheRouting.Text.Quoted

/-!
# Log files

A log file is shared by everybody who holds a copy of it.  It can be reopened at
its path or turned to another path while it is in use.  A writer keeps the file
that was open when it was made.
-/

namespace CacheRouting

structure OpenLog where
  path : String
  file : Nat
  deriving DecidableEq, Repr

/-- A log file; copies of it are equal and share what is open. -/
structure LogFile where
  slot : Nat
  deriving DecidableEq, Repr

/-- A writer, which belongs to the file that was open when it was made. -/
structure LogWriter where
  file : Nat
  deriving DecidableEq, Repr

structure LogStore where
  storage : Storage
  slots : Array OpenLog

namespace LogStore

def openLog (store : LogStore) (path : String) : Except StorageError (LogFile × LogStore) := do
  let (file, storage) ← store.storage.openAppend path
  pure (⟨store.slots.size⟩, ⟨storage, store.slots.push ⟨path, file⟩⟩)

def current? (store : LogStore) (log : LogFile) : Option OpenLog :=
  store.slots[log.slot]?

def pathOf (store : LogStore) (log : LogFile) : String :=
  ((store.current? log).map (·.path)).getD ""

def describe (store : LogStore) (log : LogFile) : String :=
  "LogFile \x7b path: " ++ Text.quote (store.pathOf log) ++ " \x7d"

/-- Turn a log file to another path.  If that cannot be opened nothing changes. -/
def swap (store : LogStore) (log : LogFile) (path : String) : Except StorageError LogStore := do
  let (file, storage) ← store.storage.openAppend path
  pure ⟨storage, store.slots.setIfInBounds log.slot ⟨path, file⟩⟩

def reopen (store : LogStore) (log : LogFile) : Except StorageError LogStore :=
  store.swap log (store.pathOf log)

def writer? (store : LogStore) (log : LogFile) : Option LogWriter :=
  (store.current? log).map fun opened => ⟨opened.file⟩

def write (store : LogStore) (writer : LogWriter) (text : String) : LogStore :=
  { store with storage := store.storage.append writer.file (Text.utf8 text) }

def writeTo (store : LogStore) (log : LogFile) (text : String) : LogStore :=
  match store.writer? log with
  | some writer => store.write writer text
  | none => store

end LogStore

end CacheRouting
