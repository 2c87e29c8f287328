import CacheRouting.Journal.Path

/-!
# Stored files

A path leads to a directory or to a file, and a file has bytes.  All names of a
path but the last have to lead to directories, and they are followed one by one.
Moving or removing a path leaves the file itself alone: whoever has it open goes
on writing to it, wherever it now stands and even if it stands nowhere.
-/

namespace CacheRouting

inductive Node
  | directory
  | file (number : Nat)
  deriving DecidableEq, Repr

inductive StorageError
  | notFound
  | isDirectory
  | notDirectory
  | alreadyExists
  | directoryNotEmpty
  | invalidInput
  | invalidData
  /-- A name, or the text of the whole path, is too long. -/
  | invalidFilename
  /-- The path ends in a directory that is in use. -/
  | resourceBusy
  deriving DecidableEq, Repr

/-- What is left of a path when all its names but the last have been followed. -/
inductive Destination
  /-- A directory that has been reached already. -/
  | reached
  /-- The entry of a directory under a name; slashes may follow the name. -/
  | entry (directory : List String) (name : String) (slash : Bool)
  deriving DecidableEq, Repr

/-- Paths, files and the directory that relative paths start from. -/
structure Storage where
  nodes : List (List String × Node)
  contents : Array (List UInt8)
  workingDirectory : List String

namespace Storage

def node? (storage : Storage) (names : List String) : Option Node :=
  if names.isEmpty then some .directory
  else (storage.nodes.find? fun entry => entry.1 == names).map (·.2)

def lookUp (storage : Storage) (directory : List String) (name : String) :
    Except StorageError (Option Node) :=
  if StoragePath.longestName < name.utf8ByteSize then .error .invalidFilename
  else .ok (storage.node? (directory ++ [name]))

def lookUpNode (storage : Storage) (directory : List String) (name : String) :
    Except StorageError Node := do
  match ← storage.lookUp directory name with
  | some node => pure node
  | none => .error .notFound

def follow (storage : Storage) (directory : List String) (name : String) :
    Except StorageError (List String) :=
  if StoragePath.isDots name then .ok (StoragePath.enter directory name)
  else do
    match ← storage.lookUpNode directory name with
    | .directory => pure (StoragePath.enter directory name)
    | .file _ => .error .notDirectory

/-- Refuse a text with a NUL, which no path holds. -/
def refuseNul (text : String) : Except StorageError Unit :=
  if text.toList.contains '\x00' then .error .invalidInput else .ok ()

def approach (storage : Storage) (text : String) : Except StorageError Destination := do
  refuseNul text
  if text.isEmpty then .error .notFound
  else if StoragePath.longestText < text.utf8ByteSize then .error .invalidFilename
  else
    let path := StoragePath.ofText text
    let start := if path.fromRoot then [] else storage.workingDirectory
    let directory ← path.names.dropLast.foldlM storage.follow start
    match path.names.getLast? with
    | none => pure .reached
    | some name =>
        if StoragePath.isDots name then pure .reached
        else pure (.entry directory name path.endsInSlash)

def setNode (storage : Storage) (names : List String) (node : Node) : Storage :=
  { storage with
    nodes := (names, node) :: storage.nodes.filter fun entry => entry.1 != names }

def unsetNode (storage : Storage) (names : List String) : Storage :=
  { storage with nodes := storage.nodes.filter fun entry => entry.1 != names }

def bytesOf (storage : Storage) (number : Nat) : List UInt8 :=
  storage.contents.getD number []

/-- Open a file for writing at its end, making it if the path leads nowhere.  A file
that may have to be made cannot have a slash behind its name. -/
def openAppend (storage : Storage) (path : String) : Except StorageError (Nat × Storage) := do
  match ← storage.approach path with
  | .reached => .error .isDirectory
  | .entry _ _ true => .error .isDirectory
  | .entry directory name false =>
      match ← storage.lookUp directory name with
      | some .directory => .error .isDirectory
      | some (.file number) => pure (number, storage)
      | none =>
          let made := { storage with contents := storage.contents.push [] }
          pure (storage.contents.size,
            made.setNode (directory ++ [name]) (.file storage.contents.size))

def append (storage : Storage) (number : Nat) (bytes : List UInt8) : Storage :=
  { storage with contents := storage.contents.modify number (· ++ bytes) }

def writeWhole (storage : Storage) (path : String) (bytes : List UInt8) :
    Except StorageError Storage := do
  let (number, opened) ← storage.openAppend path
  pure { opened with contents := opened.contents.setIfInBounds number bytes }

def readText (storage : Storage) (path : String) : Except StorageError String := do
  match ← storage.approach path with
  | .reached => .error .isDirectory
  | .entry directory name slash =>
      match ← storage.lookUpNode directory name with
      | .directory => .error .isDirectory
      | .file number =>
          if slash then .error .notDirectory
          else
            match Text.ofUtf8? (storage.bytesOf number) with
            | some text => pure text
            | none => .error .invalidData

def makeDirectory (storage : Storage) (path : String) : Except StorageError Storage := do
  match ← storage.approach path with
  | .reached => .error .alreadyExists
  | .entry directory name _ =>
      match ← storage.lookUp directory name with
      | some _ => .error .alreadyExists
      | none => pure (storage.setNode (directory ++ [name]) .directory)

def remove (storage : Storage) (path : String) : Except StorageError Storage := do
  match ← storage.approach path with
  | .reached => .error .isDirectory
  | .entry directory name slash =>
      match ← storage.lookUpNode directory name with
      | .directory => .error .isDirectory
      | .file _ =>
          if slash then .error .notDirectory
          else pure (storage.unsetNode (directory ++ [name]))

def holdsEntries (storage : Storage) (names : List String) : Bool :=
  storage.nodes.any fun entry => names.length < entry.1.length && names.isPrefixOf entry.1

def moveDirectory (storage : Storage) (source target : List String) : Storage :=
  { storage with
    nodes := (storage.nodes.filter fun entry => entry.1 != target).map fun entry =>
      if source.isPrefixOf entry.1 then (target ++ entry.1.drop source.length, entry.2) else entry }

/-- Move a node to where another may stand already.  One node takes the place of another
only if both are files, or both are directories and the other is empty. -/
def moveNode (storage : Storage) (source : List String) (node : Node) (target : List String)
    (there : Option Node) : Except StorageError Storage :=
  if source = target then .ok storage
  else
    match node, there with
    | .file _, some .directory => .error .isDirectory
    | .file number, _ => .ok ((storage.unsetNode source).setNode target (.file number))
    | .directory, some (.file _) => .error .notDirectory
    | .directory, _ =>
        if storage.holdsEntries target then .error .directoryNotEmpty
        else .ok (storage.moveDirectory source target)

/-- Move a path to another, replacing what stands there if it is of the same kind. -/
def rename (storage : Storage) (source target : String) : Except StorageError Storage := do
  refuseNul source
  refuseNul target
  match ← storage.approach source, ← storage.approach target with
  | .entry sourceDirectory sourceName sourceSlash, .entry targetDirectory targetName targetSlash =>
      let node ← storage.lookUpNode sourceDirectory sourceName
      let there ← storage.lookUp targetDirectory targetName
      let sourceNames := sourceDirectory ++ [sourceName]
      let targetNames := targetDirectory ++ [targetName]
      if node ≠ .directory ∧ (sourceSlash || targetSlash) = true then .error .notDirectory
      else if sourceNames.isPrefixOf targetDirectory then .error .invalidInput
      else if targetNames.isPrefixOf sourceDirectory then .error .directoryNotEmpty
      else storage.moveNode sourceNames node targetNames there
  | _, _ => .error .resourceBusy

end Storage

end CacheRouting
