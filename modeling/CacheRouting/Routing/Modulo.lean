import CacheRouting.Bucket
import CacheRouting.Host
import CacheRouting.Routing.Error
import CacheRouting.Routing.Stats

/-!
# Routing by remainder

A key goes to the host whose index is the remainder of the key's hash by the
number of hosts.  Changing the number of hosts moves most keys.
-/

namespace CacheRouting

structure ModuloRouter where
  hosts : List Host
  method : HashMethod

namespace ModuloRouter

/-- Route over these hosts; there must be at least one. -/
def build (hosts : List Host) (method : HashMethod) : Except SchedulerError ModuloRouter :=
  if hosts.isEmpty then .error .noHosts else .ok ⟨hosts, method⟩

def hostIndex (router : ModuloRouter) (key : String) : Nat :=
  router.method.hashText key % router.hosts.length

def route (router : ModuloRouter) (key : String) : List Nat :=
  [router.hostIndex key]

def divide? (router : ModuloRouter) (keys : List String) : Option (Array (Array String)) :=
  divideInto? router.hosts.length router.hostIndex keys

def stats (router : ModuloRouter) : Stats Rat :=
  Dictionary.ofList (router.hosts.zipIdx.map fun (host, index) =>
    (host.address, Stats.unitRow 0 1 router.hosts.length index))

end ModuloRouter

end CacheRouting
