import CacheRouting.Routing.Ring
import Mathlib

/-!
# Owners on the ring

A ring that has been built has a hundred entries for each host and none for
anybody else.  It is not empty, so that every hash has a successor on it, which
belongs to one of the hosts.
-/

namespace CacheRouting

theorem partitionPoint_le (holds : Nat → Bool) {low high : Nat} (ordered : low ≤ high) :
    partitionPoint holds low high ≤ high := by
  fun_induction partitionPoint holds low high with
  | case1 low high inside middle middleHolds ih => exact ih (by omega)
  | case2 low high inside middle middleFails ih =>
      have middleLe : partitionPoint holds low middle ≤ middle := ih (by omega)
      omega
  | case3 low high outside => exact ordered

namespace RingRouter

theorem owner_of_mem_entriesOf {method : HashMethod} {host : Host} {owner : Nat}
    {entry : RingEntry} (member : entry ∈ entriesOf method host owner) : entry.owner = owner := by
  obtain ⟨number, -, rfl⟩ := List.mem_map.mp member
  rfl

theorem length_entriesOf (method : HashMethod) (host : Host) (owner : Nat) :
    (entriesOf method host owner).length = pointsPerHost := by
  rw [entriesOf, List.length_map, List.length_range]

theorem owner_lt_of_mem_placeAll {method : HashMethod} {hosts : List Host} {entry : RingEntry}
    (member : entry ∈ placeAll method hosts) : entry.owner < hosts.length := by
  obtain ⟨⟨host, owner⟩, isHost, isEntry⟩ := List.mem_flatMap.mp member
  have found := List.mem_zipIdx_iff_getElem?.mp isHost
  rw [owner_of_mem_entriesOf isEntry]
  exact (List.getElem?_eq_some_iff.mp found).1

theorem length_placeAll (method : HashMethod) (hosts : List Host) :
    (placeAll method hosts).length = hosts.length * pointsPerHost := by
  have each : (hosts.zipIdx.map fun entry => (entriesOf method entry.1 entry.2).length) =
      List.replicate hosts.length pointsPerHost := by
    rw [List.eq_replicate_iff, List.length_map, List.length_zipIdx]
    refine ⟨rfl, ?_⟩
    intro length member
    obtain ⟨⟨host, owner⟩, -, rfl⟩ := List.mem_map.mp member
    exact length_entriesOf method host owner
  rw [placeAll, List.length_flatMap]
  exact (congrArg List.sum each).trans List.sum_replicate_nat

theorem build_eq_ok {hosts : List Host} {method : HashMethod} {router : RingRouter}
    (built : build hosts method = .ok router) :
    hosts ≠ [] ∧ router.hosts = hosts ∧ router.method = method ∧
      router.ring.toList.Perm (placeAll method hosts) := by
  unfold build at built
  split at built
  · cases built
  · next notEmpty =>
    dsimp only at built
    split at built
    · cases built
      exact ⟨by simpa using notEmpty, rfl, rfl, List.mergeSort_perm _ _⟩
    · cases built

section Built

variable {hosts : List Host} {method : HashMethod} {router : RingRouter}

theorem size_ring (built : build hosts method = .ok router) :
    router.ring.size = router.hosts.length * pointsPerHost := by
  obtain ⟨-, hostsEq, -, perm⟩ := build_eq_ok built
  rw [← Array.length_toList, perm.length_eq, length_placeAll, hostsEq]

theorem size_ring_pos (built : build hosts method = .ok router) : 0 < router.ring.size := by
  obtain ⟨notEmpty, hostsEq, -, -⟩ := build_eq_ok built
  have positive := List.length_pos_iff.mpr notEmpty
  rw [size_ring built, hostsEq]
  exact Nat.mul_pos positive (by decide)

theorem owner_lt_of_mem_ring (built : build hosts method = .ok router) {entry : RingEntry}
    (member : entry ∈ router.ring) : entry.owner < router.hosts.length := by
  obtain ⟨-, hostsEq, -, perm⟩ := build_eq_ok built
  rw [hostsEq]
  exact owner_lt_of_mem_placeAll (perm.mem_iff.mp (Array.mem_toList_iff.mpr member))

/-- The low half of a packed entry is the index of a host. -/
theorem packed_mod_lt_of_mem_ring (built : build hosts method = .ok router) {entry : RingEntry}
    (member : entry ∈ router.ring) : entry.packed % 2 ^ 32 < router.hosts.length := by
  have ownerLt := owner_lt_of_mem_ring built member
  have ownerMod : entry.packed % 2 ^ 32 = entry.owner % 2 ^ 32 :=
    Nat.mul_add_mod_self_right entry.point (2 ^ 32) entry.owner
  rw [ownerMod]
  exact Nat.lt_of_le_of_lt (Nat.mod_le ..) ownerLt

theorem successor_lt (built : build hosts method = .ok router) (hash : Nat) :
    router.successor hash < router.ring.size := by
  have found := partitionPoint_le (router.isBefore hash) (Nat.zero_le router.ring.size)
  unfold successor
  dsimp only
  split
  · exact size_ring_pos built
  · next notPast => exact Nat.lt_of_le_of_ne found notPast

theorem ownerOf_lt (built : build hosts method = .ok router) (hash : Nat) :
    router.ownerOf hash < router.hosts.length := by
  have inside := successor_lt built hash
  rw [ownerOf, Array.getD_eq_getD_getElem?, Array.getElem?_eq_getElem inside]
  exact owner_lt_of_mem_ring built (Array.getElem_mem inside)

end Built

end RingRouter

end CacheRouting
