import CacheRouting.Config.Basic
import CacheRouting.Text.Quoted

/-!
# Checks across settings

A configuration that can be read may still name too little or name it wrongly.
The sections are checked in order and the first violation is reported.
-/

namespace CacheRouting

/-- Why a configuration that can be read is refused. -/
inductive ConfigError
  | noHosts (kind : String)
  | noBuckets
  | invalidBucketCount (count : Nat)
  | invalidDuration (setting value : String)
  | emptyMailbox
  | unknownKind (name : String)
  deriving DecidableEq, Repr

namespace ConfigError

def message : ConfigError → String
  | noHosts kind => "scheduler `" ++ kind ++ "` needs at least one host"
  | noBuckets => "manual scheduler needs a non-empty [scheduler.buckets] table"
  | invalidBucketCount count =>
      "bucket_count must be a power of two in [1, 65536], got " ++ toString count
  | invalidDuration setting value =>
      "invalid duration for `" ++ setting ++ "`: " ++ Text.quote value
  | emptyMailbox => "discovery mailbox must hold at least one message"
  | unknownKind name => "unknown scheduler kind: " ++ name

end ConfigError

def SchedulerKind.ofName (name : String) : Except ConfigError SchedulerKind :=
  match ofName? name with
  | some kind => .ok kind
  | none => .error (.unknownKind name)

namespace Config

/-- Whether the auto scheduler accepts a bucket count: a power of two that is
not too large. -/
def acceptsBucketCount (count : Nat) : Bool :=
  1 <<< count.log2 == count && count ≤ maxBucketCount

def SchedulerSection.validate (part : SchedulerSection) : Except ConfigError Unit :=
  match part.kind with
  | .manual => if part.assignment.isEmpty then .error .noBuckets else .ok ()
  | .auto =>
      if part.hostList.isEmpty then .error (.noHosts part.kind.name)
      else if acceptsBucketCount part.effectiveBucketCount then .ok ()
      else .error (.invalidBucketCount part.effectiveBucketCount)
  | _ => if part.hostList.isEmpty then .error (.noHosts part.kind.name) else .ok ()

def checkDuration (setting : String) (value : Option String) : Except ConfigError Unit :=
  match value with
  | none => .ok ()
  | some text =>
      if (Duration.parse? text).isSome then .ok () else .error (.invalidDuration setting text)

def checkMailbox (mailbox : Option Nat) : Except ConfigError Unit :=
  if mailbox = some 0 then .error .emptyMailbox else .ok ()

def validate (config : Config) : Except ConfigError Unit := do
  config.scheduler.validate
  checkDuration "discovery.interval" config.discovery.interval
  checkMailbox config.discovery.mailbox
  checkDuration "host.timeout" config.host.timeout

end Config

end CacheRouting
