import CacheRouting.Routing.Scheduler

/-!
# Schedulers from configurations

The scheduler section is checked first, then the name of the hash method, and
then the constructor of the kind has its say.
-/

namespace CacheRouting

namespace Config

def DiscoverySection.options (part : DiscoverySection) : AutoOptions where
  interval := part.effectiveInterval.milliseconds
  mailbox := part.effectiveMailbox
  discovery := part.isEnabled

def SchedulerSection.configuredHosts (part : SchedulerSection) : List Host :=
  part.hostList.map Host.mk

def SchedulerSection.configuredAssignment (part : SchedulerSection) : List (Host × List Nat) :=
  part.assignment.map fun entry => (⟨entry.1⟩, entry.2)

end Config

namespace Scheduler

def ofSection (part : Config.SchedulerSection) (options : AutoOptions) (method : HashMethod)
    (hasRuntime : Bool) : Construction Scheduler :=
  match part.kind with
  | .modulo => (Construction.ofExcept (ModuloRouter.build part.configuredHosts method)).map .modulo
  | .consistent =>
      (Construction.ofExcept (RingRouter.build part.configuredHosts method)).map .consistent
  | .manual =>
      (Construction.ofExcept (ManualRouter.build part.configuredAssignment method)).map .manual
  | .auto =>
      (AutoRouter.build part.configuredHosts part.effectiveBucketCount method options
        hasRuntime).map .auto

def build (part : Config.SchedulerSection) (discovery : Config.DiscoverySection)
    (hasRuntime : Bool) : Construction Scheduler :=
  match part.validate with
  | .error error => .error (.config error)
  | .ok _ =>
      match HashMethod.ofName part.hashName with
      | .error error => .error error
      | .ok method => ofSection part discovery.options method hasRuntime

def constructionEvents (scheduler : Scheduler) (options : AutoOptions) : List Event :=
  match scheduler with
  | modulo _ => []
  | consistent router => [router.builtEvent]
  | manual router => [router.builtEvent]
  | auto router => [router.startedEvent options]

def builtEvent (scheduler : Scheduler) : Event where
  level := .info
  target := "memroute_scheduler::scheduler"
  message := "scheduler built"
  fields := [("kind", scheduler.kind.name), ("hash", scheduler.method.name),
    ("hosts", toString scheduler.hosts.length)]

end Scheduler

end CacheRouting
