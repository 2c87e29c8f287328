import CacheRouting.Dictionary
import CacheRouting.Duration
import CacheRouting.HashMethod

/-!
# Configurations

A configuration has four sections.  Every setting but the kind of scheduler may
be left out; the effective settings fill in the defaults.
-/

namespace CacheRouting

inductive SchedulerKind
  | modulo
  | consistent
  | manual
  | auto
  deriving DecidableEq, Repr

namespace SchedulerKind

def all : List SchedulerKind := [modulo, consistent, manual, auto]

def name : SchedulerKind → String
  | modulo => "mod"
  | consistent => "consistent"
  | manual => "manual"
  | auto => "auto"

def ofName? (name : String) : Option SchedulerKind :=
  all.find? fun kind => kind.name == name

end SchedulerKind

namespace Config

/-- The largest bucket count the auto scheduler accepts. -/
def maxBucketCount : Nat := 65536

structure SchedulerSection where
  kind : SchedulerKind
  hash : Option String
  hosts : Option (List String)
  bucketCount : Option Nat
  /-- The buckets each host serves, for the manual strategy. -/
  buckets : Option (Dictionary (List Nat))
  deriving DecidableEq

namespace SchedulerSection

def hashName (part : SchedulerSection) : String :=
  part.hash.getD HashMethod.default.name

def hostList (part : SchedulerSection) : List String :=
  part.hosts.getD []

def effectiveBucketCount (part : SchedulerSection) : Nat :=
  part.bucketCount.getD 16

/-- The manual assignment, in the order of the addresses. -/
def assignment (part : SchedulerSection) : List (String × List Nat) :=
  (part.buckets.map (·.entries)).getD []

end SchedulerSection

structure DiscoverySection where
  enabled : Option Bool
  interval : Option String
  mailbox : Option Nat
  deriving DecidableEq

namespace DiscoverySection

def isEnabled (part : DiscoverySection) : Bool :=
  part.enabled.getD true

def effectiveInterval (part : DiscoverySection) : Duration :=
  (part.interval.bind Duration.parse?).getD (Duration.ofSeconds 10)

/-- The effective capacity of the feedback mailbox, at least one. -/
def effectiveMailbox (part : DiscoverySection) : Nat :=
  max (part.mailbox.getD 1024) 1

end DiscoverySection

structure HostSection where
  timeout : Option String
  deriving DecidableEq

def HostSection.effectiveTimeout (part : HostSection) : Duration :=
  (part.timeout.bind Duration.parse?).getD (Duration.ofSeconds 1)

structure LogSection where
  filter : Option String
  access : Option String
  error : Option String
  deriving DecidableEq

def LogSection.effectiveFilter (part : LogSection) : String :=
  part.filter.getD "info"

end Config

structure Config where
  scheduler : Config.SchedulerSection
  discovery : Config.DiscoverySection
  host : Config.HostSection
  log : Config.LogSection
  deriving DecidableEq

end CacheRouting
