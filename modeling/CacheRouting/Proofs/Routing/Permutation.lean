import CacheRouting.Proofs.Routing.Scheduler
import CacheRouting.Proofs.Routing.Successor

/-!
# Hosts in another order

Which point comes first from a hash on depends on the points alone, not on the
numbers of their hosts.  Where hosts of different addresses have no point in
common, a point says which address it belongs to, and so routing by the ring does
not depend on the order in which the hosts are listed.
-/

namespace CacheRouting

namespace RingRouter

def SharePoint (method : HashMethod) (first second : String) : Prop :=
  ∃ number < pointsPerHost, ∃ other < pointsPerHost,
    method.hashText (placement first number) = method.hashText (placement second other)

theorem StandsBefore.point_eq {hash : Nat} {first second third fourth : RingEntry}
    (before : StandsBefore hash first second) (after : StandsBefore hash third fourth)
    (sameAsThird : second.point = third.point) (sameAsFirst : fourth.point = first.point) :
    first.point = third.point := by
  simp only [StandsBefore, RingEntry.precedes_iff] at before after
  omega

section Permutation

variable {method : HashMethod} {hosts others : List Host}

/-- The points of an entry's host are points of the host wherever it stands in the list. -/
theorem exists_mem_placeAll_of_subset {entry : RingEntry} (subset : hosts ⊆ others)
    (member : entry ∈ placeAll method hosts) :
    ∃ other ∈ placeAll method others, other.point = entry.point := by
  obtain ⟨host, isHost, isPoint⟩ := mem_placeAll_iff.mp member
  obtain ⟨owner, isOther⟩ := List.mem_iff_getElem?.mp (subset (List.mem_of_getElem? isHost))
  exact ⟨⟨entry.point, owner⟩, mem_placeAll_iff.mpr ⟨host, isOther, isPoint⟩, rfl⟩

/-- The first entries from a hash on have the same point, whatever the order of the hosts. -/
theorem IsFirstFrom.point_eq {hash : Nat} {first second : RingEntry} (perm : hosts.Perm others)
    (isFirst : IsFirstFrom hash (placeAll method hosts) first)
    (isSecond : IsFirstFrom hash (placeAll method others) second) :
    first.point = second.point := by
  obtain ⟨likeFirst, firstMember, firstPoint⟩ :=
    exists_mem_placeAll_of_subset perm.subset isFirst.mem
  obtain ⟨likeSecond, secondMember, secondPoint⟩ :=
    exists_mem_placeAll_of_subset perm.symm.subset isSecond.mem
  exact (isFirst.standsBefore likeSecond secondMember).point_eq
    (isSecond.standsBefore likeFirst firstMember) secondPoint firstPoint

/-- Entries at one point belong to one address. -/
theorem address_eq_of_point_eq {first second : RingEntry} {host other : Host}
    (apart : ∀ host ∈ hosts, ∀ other ∈ hosts, host.address ≠ other.address →
      ¬ SharePoint method host.address other.address)
    (perm : hosts.Perm others) (firstMember : first ∈ placeAll method hosts)
    (secondMember : second ∈ placeAll method others) (samePoint : first.point = second.point)
    (isHost : hosts[first.owner]? = some host) (isOther : others[second.owner]? = some other) :
    host.address = other.address := by
  obtain ⟨found, isFound, number, inRange, pointEq⟩ := mem_placeAll_iff.mp firstMember
  obtain ⟨otherFound, isOtherFound, otherNumber, otherInRange, otherPointEq⟩ :=
    mem_placeAll_iff.mp secondMember
  cases isHost.symm.trans isFound
  cases isOther.symm.trans isOtherFound
  by_contra different
  refine apart host (List.mem_of_getElem? isHost) other
    (perm.symm.subset (List.mem_of_getElem? isOther)) different ?_
  exact ⟨number, inRange, otherNumber, otherInRange,
    pointEq.symm.trans (samePoint.trans otherPointEq)⟩

end Permutation

/-- The address a key goes to is that of the host that owns the entry at its hash. -/
theorem exists_hostsFor_eq {hosts : List Host} {method : HashMethod} {router : RingRouter}
    (built : build hosts method = .ok router) (key : String) :
    ∃ host, hosts[(router.entryFrom (method.hashText key)).owner]? = some host ∧
      (Scheduler.consistent router).hostsFor key = [host] := by
  obtain ⟨-, hostsEq, methodEq, -⟩ := build_eq_ok built
  have inside := ownerOf_lt built (method.hashText key)
  rw [hostsEq] at inside
  have found := List.getElem?_eq_getElem inside
  refine ⟨_, found, ?_⟩
  simp only [Scheduler.hostsFor, Scheduler.route, route, Scheduler.hosts, hostIndex, hostsEq,
    methodEq, List.filterMap_cons, List.filterMap_nil, found]

/-- Where hosts of different addresses have no point in common, every key goes to the same
address whatever the order in which the hosts are listed. -/
theorem routes_are_independent_of_order {method : HashMethod} {hosts others : List Host}
    (notEmpty : hosts ≠ []) (perm : hosts.Perm others)
    (apart : ∀ host ∈ hosts, ∀ other ∈ hosts, host.address ≠ other.address →
      ¬ SharePoint method host.address other.address) :
    ∃ first second, build hosts method = .ok first ∧ build others method = .ok second ∧
      ∀ key, ∃ host other, (Scheduler.consistent first).hostsFor key = [host] ∧
        (Scheduler.consistent second).hostsFor key = [other] ∧ host.address = other.address := by
  have othersNotEmpty : others ≠ [] := fun empty => notEmpty (List.perm_nil.mp (empty ▸ perm))
  obtain ⟨first, built⟩ := exists_build_eq_ok notEmpty method
  obtain ⟨second, otherBuilt⟩ := exists_build_eq_ok othersNotEmpty method
  refine ⟨first, second, built, otherBuilt, ?_⟩
  intro key
  obtain ⟨host, isHost, hostsEq⟩ := exists_hostsFor_eq built key
  obtain ⟨other, isOther, othersEq⟩ := exists_hostsFor_eq otherBuilt key
  have isFirst := isFirstFrom_entryFrom built (method.hashText key)
  have isSecond := isFirstFrom_entryFrom otherBuilt (method.hashText key)
  exact ⟨host, other, hostsEq, othersEq, address_eq_of_point_eq apart perm isFirst.mem isSecond.mem
    (isFirst.point_eq perm isSecond) isHost isOther⟩

/-- A host may be listed twice, and its two entries at each point be told apart by the order
only. -/
theorem routes_are_independent_of_order_when_repeated :
    ∃ first second, build [⟨"a:1"⟩, ⟨"b:1"⟩, ⟨"a:1"⟩] .fnv1a = .ok first ∧
      build [⟨"a:1"⟩, ⟨"a:1"⟩, ⟨"b:1"⟩] .fnv1a = .ok second ∧
      ∃ host other, (Scheduler.consistent first).hostsFor "@" = [host] ∧
        (Scheduler.consistent second).hostsFor "@" = [other] ∧ host.address = other.address := by
  have distinct : ∀ number < pointsPerHost, ∀ other < pointsPerHost,
      HashMethod.fnv1a.hashText (placement "a:1" number) ≠
        HashMethod.fnv1a.hashText (placement "b:1" other) := by
    decide +kernel
  have noneShared : ¬ SharePoint .fnv1a "a:1" "b:1" :=
    fun ⟨number, inRange, other, otherInRange, same⟩ =>
      distinct number inRange other otherInRange same
  have noneSharedBack : ¬ SharePoint .fnv1a "b:1" "a:1" :=
    fun ⟨number, inRange, other, otherInRange, same⟩ =>
      distinct other otherInRange number inRange same.symm
  obtain ⟨first, second, built, otherBuilt, sameAddress⟩ :=
    @routes_are_independent_of_order .fnv1a [⟨"a:1"⟩, ⟨"b:1"⟩, ⟨"a:1"⟩]
      [⟨"a:1"⟩, ⟨"a:1"⟩, ⟨"b:1"⟩] (by decide) (by decide)
      (by simp [noneShared, noneSharedBack])
  exact ⟨first, second, built, otherBuilt, sameAddress "@"⟩

end RingRouter

end CacheRouting
