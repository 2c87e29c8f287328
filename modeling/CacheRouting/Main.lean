import CacheRouting.Command.Program

/-!
# The program

The configuration is read before the command runs and the log lines are written
after it has run; everything between is decided by `Command.run`.
-/

open CacheRouting

/-- The directories on a way from a directory, where every name but the last leads to
one. -/
def directoriesTo (directory : List String) : List String → List (List String)
  | name :: next :: rest =>
      let entered := StoragePath.enter directory name
      entered :: directoriesTo entered (next :: rest)
  | _ => []

def readConfiguration : Command.Reading → IO (List (String × List UInt8))
  | .request (.init _) => pure []
  | .request (.run path _) | .request (.route path _) | .request (.divide path _) =>
      try
        let bytes ← IO.FS.readBinFile path
        pure [(path, bytes.toList)]
      catch _ => pure []
  | _ => pure []

def logPaths (files : List (String × List UInt8)) : List String :=
  files.flatMap fun (_, bytes) =>
    match (Text.ofUtf8? bytes).bind Config.read? with
    | some config => config.log.access.toList ++ config.log.error.toList
    | none => []

/-- Storage that holds these files, and the directories on the way to the others. -/
def storageOf (files : List (String × List UInt8)) (others : List String) : Storage :=
  let empty : Storage := ⟨[], #[], []⟩
  let ways := (files.map (·.1) ++ others).flatMap fun path =>
    directoriesTo [] (StoragePath.ofText path).names
  let prepared := ways.foldl (fun storage names => storage.setNode names .directory) empty
  files.foldl
    (fun storage (path, bytes) => (storage.writeWhole path bytes).toOption.getD storage) prepared

/-- Write what a command has logged at the end of a log file.  Says whether that was
possible. -/
def writeLog (storage : Storage) (path : String) : IO Bool := do
  match (storage.readText path).toOption with
  | none => pure true
  | some text =>
      try
        let handle ← IO.FS.Handle.mk path .append
        handle.putStr text
        pure true
      catch _ => pure false

partial def waitForEver : IO Unit := do
  IO.sleep 60000
  waitForEver

def main (arguments : List String) : IO UInt32 := do
  let files ← readConfiguration (Command.read arguments)
  let logs := logPaths files
  let world : LogWorld := ⟨⟨storageOf files logs, #[]⟩, ""⟩
  let outcome := Command.run (← IO.getEnv "RUST_LOG") world arguments
  let written ← logs.mapM (writeLog outcome.world.store.storage)
  IO.eprint outcome.world.console
  if written.all id then
    IO.print outcome.output
    match outcome.ending with
    | .success => pure 0
    | .failure => pure 1
    | .misuse => pure 2
    | .broken => pure 101
    | .keepsRunning =>
        waitForEver
        pure 0
  else pure 1
