import CacheRouting.Config.Basic
import CacheRouting.Journal.Filter
import CacheRouting.Journal.LogFile
import CacheRouting.Text.Hex

/-!
# Where events are logged

Events are handed to layers.  Each layer has an output and filters, and an event
gets through only if all of them let it.  The layer of the access log takes the
events of the access target, whatever their level; the layer of the main log takes
all others if the filter of the configuration lets them through.  A log that is
configured is a file; without one the main log goes to the console and access
events go nowhere.
-/

namespace CacheRouting

def accessTarget : String := "memroute::access"

structure LogHandles where
  access : Option LogFile
  error : Option LogFile
  deriving DecidableEq, Repr

inductive LogError
  | invalidFilter (text : String)
  | openingAccess (path : String) (cause : StorageError)
  | openingError (path : String) (cause : StorageError)
  deriving DecidableEq, Repr

namespace LogError

def message : LogError → String
  | invalidFilter text => "invalid log filter " ++ Text.quote text
  | openingAccess path _ => "opening access log " ++ path
  | openingError path _ => "opening error log " ++ path

end LogError

structure Subscriber where
  filter : Filter
  handles : LogHandles

structure LogWorld where
  store : LogStore
  console : String

def reopenHandle (store : LogStore) : Option LogFile → Option StorageError × LogStore
  | none => (none, store)
  | some log =>
      match store.reopen log with
      | .ok store => (none, store)
      | .error error => (some error, store)

/-- Reopen the access log and then the other one, unless the first fails. -/
def LogHandles.reopen (handles : LogHandles) (store : LogStore) :
    Option StorageError × LogStore :=
  match reopenHandle store handles.access with
  | (some error, store) => (some error, store)
  | (none, store) => reopenHandle store handles.error

namespace Subscriber

/-- The filter of the main log: that of the environment if it can be read, else that
of the configuration. -/
def chooseFilter (environment : Option String) (configured : String) : Except LogError Filter :=
  match environment.bind Filter.read? with
  | some filter => .ok filter
  | none =>
      match Filter.read? configured with
      | some filter => .ok filter
      | none => .error (.invalidFilter configured)

def openConfigured (failure : String → StorageError → LogError) (store : LogStore) :
    Option String → Except LogError (Option LogFile × LogStore)
  | none => .ok (none, store)
  | some path =>
      match store.openLog path with
      | .ok (log, store) => .ok (some log, store)
      | .error error => .error (failure path error)

/-- Set up logging.  The second component is what is stored afterwards, also if
setting up has failed halfway. -/
def setUp (environment : Option String) (config : Config.LogSection) (store : LogStore) :
    Except LogError Subscriber × LogStore :=
  match chooseFilter environment config.effectiveFilter with
  | .error error => (.error error, store)
  | .ok filter =>
      match openConfigured .openingAccess store config.access with
      | .error error => (.error error, store)
      | .ok (access, store) =>
          match openConfigured .openingError store config.error with
          | .error error => (.error error, store)
          | .ok (error, store) => (.ok ⟨filter, ⟨access, error⟩⟩, store)

/-- How a character of a message is written: control characters that could steer a
terminal are spelled by number. -/
def writeCharacter (character : Char) : List Char :=
  let code := character.toNat
  if code ∈ [0x07, 0x08, 0x0c, 0x1b, 0x7f] then
    '\\' :: 'x' :: Text.hexDigits 2 code
  else if 0x80 ≤ code ∧ code ≤ 0x9f then
    '\\' :: 'u' :: '\x7b' :: (Text.hexDigits 2 code ++ ['\x7d'])
  else [character]

def writeMessage (message : String) : String :=
  String.ofList (message.toList.flatMap writeCharacter)

def describe (withTarget : Bool) (event : Event) : String :=
  (if withTarget then event.target ++ ": " else "") ++
    " ".intercalate
      (writeMessage event.message :: event.fields.map fun (name, text) => name ++ "=" ++ text)

def lineOf (withTarget : Bool) (event : Event) : String :=
  event.level.name ++ " " ++ describe withTarget event ++ "\n"

end Subscriber

inductive LogOutput
  | file (log : LogFile)
  | console
  deriving DecidableEq, Repr

def LogWorld.write (world : LogWorld) (output : LogOutput) (text : String) : LogWorld :=
  match output with
  | .file log => { world with store := world.store.writeTo log text }
  | .console => { world with console := world.console ++ text }

/-- An output for events, behind filters of its own. -/
structure LogLayer where
  output : LogOutput
  /-- Whether lines name the targets of their events. -/
  showsTarget : Bool
  filters : List (Event → Bool)

namespace LogLayer

def accepts (layer : LogLayer) (event : Event) : Bool :=
  layer.filters.all fun enables => enables event

def receive (layer : LogLayer) (world : LogWorld) (event : Event) : LogWorld :=
  if layer.accepts event then
    world.write layer.output (Subscriber.lineOf layer.showsTarget event)
  else world

end LogLayer

namespace LogHandles

/-- The layer of the access log, which takes the events of the access target, whatever
their level. -/
def accessLayer? (handles : LogHandles) : Option LogLayer :=
  handles.access.map fun log =>
    ⟨.file log, false, [fun event => event.target == accessTarget]⟩

/-- The layer of the main log, which takes the events of all other targets that its filter
lets through. -/
def mainLayer (handles : LogHandles) (enables : Event → Bool) : LogLayer where
  output :=
    match handles.error with
    | some log => .file log
    | none => .console
  showsTarget := true
  filters := [enables, fun event => event.target != accessTarget]

def layers (handles : LogHandles) (enables : Event → Bool) : List LogLayer :=
  handles.accessLayer?.toList ++ [handles.mainLayer enables]

def deliver (handles : LogHandles) (enables : Event → Bool) (world : LogWorld) (event : Event) :
    LogWorld :=
  (handles.layers enables).foldl (fun world layer => layer.receive world event) world

end LogHandles

namespace Subscriber

def log (subscriber : Subscriber) (world : LogWorld) (event : Event) : LogWorld :=
  subscriber.handles.deliver
    (fun event => subscriber.filter.enables event.target event.level) world event

end Subscriber

end CacheRouting
