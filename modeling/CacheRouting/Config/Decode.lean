import CacheRouting.Config.Validate
import CacheRouting.Document.Toml.Reader

/-!
# Configurations in documents

A document becomes a configuration field by field.  Fields without a meaning are
ignored, and a value of the wrong kind refuses the document.  A section may also
be written as the list of its settings in order.
-/

namespace CacheRouting

namespace Config

open Document (Value)

/-- What depends on the format of a document as far as sections are concerned. -/
structure Format where
  /-- Whether a section in list form may have more items than settings. -/
  allowsExtraItems : Bool
  /-- Whether a value says nothing. -/
  saysNothing : Value → Bool

/-- TOML ignores further items and says nothing with an empty list or table. -/
def Format.toml : Format where
  allowsExtraItems := true
  saysNothing
    | .list [] => true
    | .table [] => true
    | _ => false

/-- The fields of a section with these settings, of which at least `required` must
be present in list form.  A moment is a section without fields. -/
def Format.fields? (rules : Format) (settings : List String) (required : Nat) :
    Value → Option (List (String × Value))
  | .table fields => some fields
  | .moment => some []
  | .list items =>
      if items.length < required then none
      else if settings.length < items.length && !rules.allowsExtraItems then none
      else some (settings.zip items)
  | _ => none

/-- An optional setting: absent, null, or what the reader makes of it. -/
def optional? {Setting : Type} (read : Value → Option Setting)
    (fields : List (String × Value)) (name : String) : Option (Option Setting) :=
  match Value.field? fields name with
  | none => some none
  | some .null => some none
  | some value => (read value).map some

def text? : Value → Option String
  | .text value => some value
  | _ => none

def boolean? : Value → Option Bool
  | .boolean value => some value
  | _ => none

def count? : Value → Option Nat
  | .integer value => if 0 ≤ value ∧ value.toNat < UInt64.size then some value.toNat else none
  | _ => none

def list? {Item : Type} (read : Value → Option Item) : Value → Option (List Item)
  | .list items => items.mapM read
  | _ => none

def dictionary? {Item : Type} (read : Value → Option Item) : Value → Option (Dictionary Item)
  | .table fields =>
      (fields.mapM fun field => (read field.2).map fun item => (field.1, item)).map
        Dictionary.ofList
  | _ => none

/-- A kind of scheduler: its name, or a table with the name and nothing under it. -/
def Format.kind? (rules : Format) : Value → Option SchedulerKind
  | .text name => SchedulerKind.ofName? name
  | .table [(name, value)] => if rules.saysNothing value then SchedulerKind.ofName? name else none
  | _ => none

def Format.scheduler? (rules : Format) (value : Value) : Option SchedulerSection := do
  let fields ← rules.fields? ["kind", "hash", "hosts", "bucket_count", "buckets"] 5 value
  let kind ← (Value.field? fields "kind").bind rules.kind?
  let hash ← optional? text? fields "hash"
  let hosts ← optional? (list? text?) fields "hosts"
  let bucketCount ← optional? count? fields "bucket_count"
  let buckets ← optional? (dictionary? (list? count?)) fields "buckets"
  pure { kind, hash, hosts, bucketCount, buckets }

def Format.discovery? (rules : Format) (value : Value) : Option DiscoverySection := do
  let fields ← rules.fields? ["enabled", "interval", "mailbox"] 3 value
  let enabled ← optional? boolean? fields "enabled"
  let interval ← optional? text? fields "interval"
  let mailbox ← optional? count? fields "mailbox"
  pure { enabled, interval, mailbox }

def Format.host? (rules : Format) (value : Value) : Option HostSection := do
  let fields ← rules.fields? ["timeout"] 1 value
  let timeout ← optional? text? fields "timeout"
  pure { timeout }

def Format.log? (rules : Format) (value : Value) : Option LogSection := do
  let fields ← rules.fields? ["filter", "access", "error"] 3 value
  let filter ← optional? text? fields "filter"
  let access ← optional? text? fields "access"
  let error ← optional? text? fields "error"
  pure { filter, access, error }

def section? {Section : Type} (missing : Section) (read : Value → Option Section)
    (fields : List (String × Value)) (name : String) : Option Section :=
  match Value.field? fields name with
  | none => some missing
  | some value => read value

def ofValue? (rules : Format) (value : Value) : Option Config := do
  let fields ← rules.fields? ["scheduler", "discovery", "host", "log"] 1 value
  let scheduler ← (Value.field? fields "scheduler").bind rules.scheduler?
  let discovery ← section? ⟨none, none, none⟩ rules.discovery? fields "discovery"
  let host ← section? ⟨none⟩ rules.host? fields "host"
  let log ← section? ⟨none, none, none⟩ rules.log? fields "log"
  pure { scheduler, discovery, host, log }

/-- Read a TOML document as a configuration, without checking its settings. -/
def read? (text : String) : Option Config :=
  (Document.Toml.read? text).bind fun fields => ofValue? .toml (.table fields)

inductive LoadError
  | unreadable
  | refused (error : ConfigError)
  deriving DecidableEq, Repr

/-- Read a TOML document as a configuration and check its settings. -/
def parse (text : String) : Except LoadError Config :=
  match read? text with
  | none => .error .unreadable
  | some config =>
      match config.validate with
      | .ok _ => .ok config
      | .error error => .error (.refused error)

end Config

end CacheRouting
