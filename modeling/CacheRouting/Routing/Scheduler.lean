import CacheRouting.Auto.Router
import CacheRouting.Routing.Manual
import CacheRouting.Routing.Modulo
import CacheRouting.Routing.Ring

/-!
# Schedulers

A scheduler routes keys to hosts in one of four ways.  Whatever the way, it has a
list of hosts, gives each key its hosts in the order of preference, groups keys
so that each group can go out in one request, and reports numbers for each host.
-/

namespace CacheRouting

inductive Scheduler
  | modulo (router : ModuloRouter)
  | consistent (router : RingRouter)
  | manual (router : ManualRouter)
  | auto (router : AutoRouter Float)

namespace Scheduler

def kind : Scheduler → SchedulerKind
  | modulo _ => .modulo
  | consistent _ => .consistent
  | manual _ => .manual
  | auto _ => .auto

def method : Scheduler → HashMethod
  | modulo router => router.method
  | consistent router => router.method
  | manual router => router.method
  | auto router => router.method

def hosts : Scheduler → List Host
  | modulo router => router.hosts
  | consistent router => router.hosts
  | manual router => router.hosts
  | auto router => router.hosts

def route : Scheduler → String → List Nat
  | modulo router => router.route
  | consistent router => router.route
  | manual router => router.route
  | auto router => router.route

def hostsFor (scheduler : Scheduler) (key : String) : List Host :=
  (scheduler.route key).filterMap fun index => scheduler.hosts[index]?

/-- Group keys so that each group can go out in one request: by host for the first
two kinds, by bucket for the others. -/
def divide? : Scheduler → List String → Option (Array (Array String))
  | modulo router => router.divide?
  | consistent router => router.divide?
  | manual router => router.divide?
  | auto router => router.divide?

def stats : Scheduler → Stats Float
  | modulo router => router.stats.mapShares Stats.shareToFloat
  | consistent router => router.stats.mapShares Stats.shareToFloat
  | manual router => router.stats.mapShares Stats.shareToFloat
  | auto router => router.stats

end Scheduler

end CacheRouting
