import CacheRouting.Config.Basic

/-!
# Starter configurations

For each kind of scheduler there is a small configuration that is complete and
valid, with two hosts on the local machine.
-/

namespace CacheRouting

namespace Config

def starterHosts : List String := ["127.0.0.1:11211", "127.0.0.1:11212"]

def starterBuckets : Dictionary (List Nat) :=
  Dictionary.ofList (starterHosts.zip [[0, 1], [1, 2, 3]])

def scaffold (kind : SchedulerKind) : Config where
  scheduler := {
    kind
    hash := some HashMethod.default.name
    hosts := if kind = .manual then none else some starterHosts
    bucketCount := if kind = .auto then some 16 else none
    buckets := if kind = .manual then some starterBuckets else none }
  discovery := { enabled := some true, interval := some "10s", mailbox := some 1024 }
  host := { timeout := some "1s" }
  log := { filter := some "info", access := none, error := none }

end Config

end CacheRouting
