import CacheRouting.Config.Validate
import CacheRouting.Text.Digits

/-!
# The command line

The first argument names a command.  Options stand anywhere after it and take
their value from the same argument, after an equals sign, or from the next one;
after a double dash everything is a key.  Arguments are read in order, so the
first that is wrong decides, and a request for help before it is granted.
-/

namespace CacheRouting

namespace Command

inductive Request
  | run (config : String) (statsInterval : Nat)
  | route (config : String) (keys : List String)
  | divide (config : String) (keys : List String)
  | init (kind : SchedulerKind)
  deriving DecidableEq, Repr

inductive Verb
  | run
  | route
  | divide
  | init
  deriving DecidableEq, Repr

inductive Topic
  | program
  | verb (verb : Verb)
  | help
  deriving DecidableEq, Repr

inductive Reading
  | request (request : Request)
  | help (topic : Topic)
  | refused
  deriving DecidableEq, Repr

inductive Setting
  | config
  | statsInterval
  | kind
  deriving DecidableEq, Repr

namespace Verb

def all : List Verb := [run, route, divide, init]

def name : Verb → String
  | run => "run"
  | route => "route"
  | divide => "divide"
  | init => "init"

def ofName? (name : String) : Option Verb :=
  all.find? fun verb => verb.name == name

def settings : Verb → List Setting
  | run => [.config, .statsInterval]
  | route => [.config]
  | divide => [.config]
  | init => [.kind]

def takesKeys : Verb → Bool
  | route => true
  | divide => true
  | _ => false

end Verb

namespace Setting

def name : Setting → String
  | config => "config"
  | statsInterval => "stats-interval"
  | kind => "kind"

def accepts (setting : Setting) (value : String) : Bool :=
  match setting with
  | config => !value.isEmpty
  | statsInterval => (Text.readUnsigned? UInt64.size value.toList).isSome
  | kind => (SchedulerKind.ofName? value).isSome

end Setting

structure Progress where
  values : List (Setting × String)
  keys : List String

namespace Progress

def value? (progress : Progress) (setting : Setting) : Option String :=
  (progress.values.find? fun entry => entry.1 == setting).map (·.2)

/-- Give an option a value, which it must accept and may not have been given before. -/
def give? (progress : Progress) (setting : Setting) (value : String) : Option Progress :=
  if (progress.value? setting).isSome || !setting.accepts value then none
  else some { progress with values := progress.values ++ [(setting, value)] }

end Progress

inductive Argument
  | doubleDash
  /-- A word after two dashes, and what follows its equals sign. -/
  | long (word : String) (value : Option String)
  /-- Letters after one dash. -/
  | short (letters : List Char)
  | plain (text : String)
  deriving DecidableEq, Repr

/-- Tell the kinds of arguments apart.  A dash alone is plain. -/
def Argument.ofText (text : String) : Argument :=
  match text.toList with
  | ['-', '-'] => .doubleDash
  | '-' :: '-' :: rest =>
      match rest.dropWhile (· != '=') with
      | _ :: value => .long (String.ofList (rest.takeWhile (· != '='))) (some (String.ofList value))
      | [] => .long (String.ofList rest) none
  | '-' :: letter :: rest => .short (letter :: rest)
  | _ => .plain text

def Argument.asksForHelp : Argument → Bool
  | long "help" none => true
  | short ('h' :: _) => true
  | _ => false

def finish (verb : Verb) (progress : Progress) : Reading :=
  let config := (progress.value? .config).getD "memroute.toml"
  match verb with
  | .run =>
      let interval := ((progress.value? .statsInterval).bind fun value =>
        Text.readUnsigned? UInt64.size value.toList).getD 60
      .request (.run config interval)
  | .init =>
      .request (.init (((progress.value? .kind).bind SchedulerKind.ofName?).getD .auto))
  | .route =>
      if progress.keys.isEmpty then .refused else .request (.route config progress.keys)
  | .divide =>
      if progress.keys.isEmpty then .refused else .request (.divide config progress.keys)

def readKeys (verb : Verb) (progress : Progress) (arguments : List String) : Reading :=
  if arguments.isEmpty || verb.takesKeys then
    finish verb { progress with keys := progress.keys ++ arguments }
  else .refused

def readArguments (verb : Verb) : Progress → List String → Reading
  | progress, [] => finish verb progress
  | progress, text :: rest =>
      let argument := Argument.ofText text
      if argument.asksForHelp then .help (.verb verb)
      else
        match argument with
        | .doubleDash => readKeys verb progress rest
        | .plain key =>
            if verb.takesKeys then
              readArguments verb { progress with keys := progress.keys ++ [key] } rest
            else .refused
        | .short _ => .refused
        | .long word value =>
            match verb.settings.find? fun setting => setting.name == word with
            | none => .refused
            | some setting =>
                match value, rest with
                | some value, rest =>
                    match progress.give? setting value with
                    | some progress => readArguments verb progress rest
                    | none => .refused
                | none, [] => .refused
                | none, value :: rest =>
                    match Argument.ofText value with
                    | .plain value =>
                        match progress.give? setting value with
                        | some progress => readArguments verb progress rest
                        | none => .refused
                    | _ => .refused

def readTopic : List String → Reading
  | [] => .help .program
  | ["help"] => .help .help
  | [name] =>
      match Verb.ofName? name with
      | some verb => .help (.verb verb)
      | none => .refused
  | _ => .refused

def read : List String → Reading
  | [] => .refused
  | text :: rest =>
      let argument := Argument.ofText text
      if argument.asksForHelp then .help .program
      else
        match argument with
        | .plain "help" => readTopic rest
        | .plain name =>
            match Verb.ofName? name with
            | some verb => readArguments verb ⟨[], []⟩ rest
            | none => .refused
        | _ => .refused

end Command

end CacheRouting
