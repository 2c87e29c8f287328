import CacheRouting.Proofs.Routing.Successor

/-!
# Packed entries

As long as there are fewer hosts than hashes, an entry can be read off the number
it is packed into, and entries stand in the order of their numbers.  So a ring is
an ascending list of numbers, a hundred for each host, and the binary search
finds the least of those whose high half is not below the hash.
-/

namespace CacheRouting

namespace RingEntry

theorem packed_div {entry : RingEntry} (fits : entry.owner < 2 ^ 32) :
    entry.packed / 2 ^ 32 = entry.point := by
  change (entry.point * 2 ^ 32 + entry.owner) / 2 ^ 32 = entry.point
  omega

theorem packed_mod {entry : RingEntry} (fits : entry.owner < 2 ^ 32) :
    entry.packed % 2 ^ 32 = entry.owner := by
  change (entry.point * 2 ^ 32 + entry.owner) % 2 ^ 32 = entry.owner
  omega

theorem packed_le_packed_iff {first second : RingEntry} (firstFits : first.owner < 2 ^ 32)
    (secondFits : second.owner < 2 ^ 32) :
    first.packed ≤ second.packed ↔ first.precedes second = true := by
  rw [precedes_iff]
  change first.point * 2 ^ 32 + first.owner ≤ second.point * 2 ^ 32 + second.owner ↔ _
  omega

end RingEntry

/-- The least of these numbers whose high half is not below a hash, or the least of all when
there is none. -/
def IsSuccessor (numbers : List Nat) (hash number : Nat) : Prop :=
  IsLeast {other | other ∈ numbers ∧ hash ≤ other / 2 ^ 32} number ∨
    (∀ other ∈ numbers, other / 2 ^ 32 < hash) ∧ IsLeast {other | other ∈ numbers} number

namespace RingRouter

def packedRing (router : RingRouter) : List Nat :=
  router.ring.toList.map RingEntry.packed

theorem filter_owner_entriesOf_self (method : HashMethod) (host : Host) (owner : Nat) :
    (entriesOf method host owner).filter (·.owner == owner) = entriesOf method host owner := by
  rw [List.filter_eq_self]
  intro entry member
  rw [owner_of_mem_entriesOf member, beq_self_eq_true]

/-- Hosts that do not have the index have no entries of this owner. -/
theorem flatMap_filter_owner_eq_nil {method : HashMethod} {index : Nat}
    {others : List (Host × Nat)} (different : ∀ other ∈ others, other.2 ≠ index) :
    (others.flatMap fun (host, owner) =>
      (entriesOf method host owner).filter (·.owner == index)) = [] := by
  rw [List.flatMap_eq_nil_iff]
  intro other isOther
  rw [List.filter_eq_nil_iff]
  intro entry member
  rw [owner_of_mem_entriesOf member, beq_iff_eq]
  exact different other isOther

/-- Of the entries of all hosts, those with the index of a host are its own. -/
theorem filter_owner_placeAll (method : HashMethod) {hosts : List Host} {index : Nat} {host : Host}
    (isHost : hosts[index]? = some host) :
    (placeAll method hosts).filter (·.owner == index) = entriesOf method host index := by
  obtain ⟨inside, isAt⟩ := List.getElem?_eq_some_iff.mp isHost
  have split : hosts = hosts.take index ++ host :: hosts.drop (index + 1) := by
    rw [← isAt, ← List.drop_eq_getElem_cons inside, List.take_append_drop]
  have lengthBefore : (hosts.take index).length = index := by
    rw [List.length_take]
    omega
  have before : ∀ other ∈ (hosts.take index).zipIdx, other.2 ≠ index := by
    intro other member
    have := List.snd_lt_of_mem_zipIdx member
    omega
  have behind : ∀ other ∈ (hosts.drop (index + 1)).zipIdx (index + 1), other.2 ≠ index := by
    intro other member
    have := List.le_snd_of_mem_zipIdx member
    omega
  rw [placeAll, List.filter_flatMap, split, List.zipIdx_append, List.flatMap_append,
    flatMap_filter_owner_eq_nil before, lengthBefore, Nat.zero_add, List.zipIdx_cons,
    List.flatMap_cons, flatMap_filter_owner_eq_nil behind, filter_owner_entriesOf_self,
    List.nil_append, List.append_nil]

section Built

variable {hosts : List Host} {method : HashMethod} {router : RingRouter}

theorem owner_fits (built : build hosts method = .ok router) (fits : hosts.length < 2 ^ 32)
    {entry : RingEntry} (member : entry ∈ router.ring.toList) : entry.owner < 2 ^ 32 := by
  obtain ⟨-, hostsEq, -, -⟩ := build_eq_ok built
  have ownerLt := owner_lt_of_mem_ring built (Array.mem_toList_iff.mp member)
  rw [hostsEq] at ownerLt
  exact Nat.lt_trans ownerLt fits

theorem pairwise_packedRing (built : build hosts method = .ok router)
    (fits : hosts.length < 2 ^ 32) : router.packedRing.Pairwise (· ≤ ·) := by
  rw [packedRing, List.pairwise_map]
  refine (pairwise_ring built).imp_of_mem ?_
  intro first second isFirst isSecond precedes
  exact (RingEntry.packed_le_packed_iff (owner_fits built fits isFirst)
    (owner_fits built fits isSecond)).mpr precedes

theorem length_packedRing (built : build hosts method = .ok router) :
    router.packedRing.length = 100 * hosts.length := by
  obtain ⟨-, hostsEq, -, -⟩ := build_eq_ok built
  rw [packedRing, List.length_map, Array.length_toList, size_ring built, hostsEq, Nat.mul_comm]
  rfl

/-- The numbers with an index in their low half are the entries of the host at this index. -/
theorem filter_packedRing (built : build hosts method = .ok router)
    (fits : hosts.length < 2 ^ 32) (index : Nat) :
    router.packedRing.filter (fun number => number % 2 ^ 32 == index) =
      (router.ring.toList.filter (·.owner == index)).map RingEntry.packed := by
  rw [packedRing, List.filter_map, Function.comp_def]
  refine congrArg _ (List.filter_congr ?_)
  intro entry member
  rw [RingEntry.packed_mod (owner_fits built fits member)]

theorem filter_owner_ring_perm (built : build hosts method = .ok router) {index : Nat} {host : Host}
    (isHost : hosts[index]? = some host) :
    (router.ring.toList.filter (·.owner == index)).Perm (entriesOf method host index) := by
  obtain ⟨-, -, -, perm⟩ := build_eq_ok built
  rw [← filter_owner_placeAll method isHost]
  exact perm.filter _

theorem highHalves_perm (built : build hosts method = .ok router) (fits : hosts.length < 2 ^ 32)
    {index : Nat} {host : Host} (isHost : hosts[index]? = some host) :
    ((router.packedRing.filter fun number => number % 2 ^ 32 == index).map (· / 2 ^ 32)).Perm
      ((List.range 100).map fun number =>
        method.hashText (label host.address ++ "-" ++ toString number)) := by
  have points : ((router.ring.toList.filter (·.owner == index)).map RingEntry.packed).map
      (· / 2 ^ 32) = (router.ring.toList.filter (·.owner == index)).map (·.point) := by
    rw [List.map_map, Function.comp_def]
    apply List.map_congr_left
    intro entry member
    exact RingEntry.packed_div (owner_fits built fits (List.mem_filter.mp member).1)
  have placed : (entriesOf method host index).map (·.point) = (List.range 100).map fun number =>
      method.hashText (label host.address ++ "-" ++ toString number) := by
    rw [entriesOf, List.map_map]
    rfl
  rw [filter_packedRing built fits, points, ← placed]
  exact (filter_owner_ring_perm built isHost).map _

/-- The entry at which a hash arrives is the successor of the hash among packed entries. -/
theorem isSuccessor_entryFrom (built : build hosts method = .ok router)
    (fits : hosts.length < 2 ^ 32) (hash : Nat) :
    IsSuccessor router.packedRing hash (router.entryFrom hash).packed := by
  obtain ⟨member, standsBefore⟩ :=
    isFirstFrom_of_pairwise (pairwise_ring built) (entryFrom_eq built hash)
  generalize router.entryFrom hash = entry at member standsBefore ⊢
  have entryFits := owner_fits built fits member
  have inRing : entry.packed ∈ router.packedRing := List.mem_map_of_mem member
  by_cases after : hash ≤ entry.point
  · refine Or.inl ⟨⟨inRing, by rwa [RingEntry.packed_div entryFits]⟩, ?_⟩
    rintro number ⟨isNumber, notBelow⟩
    obtain ⟨other, isOther, rfl⟩ := List.mem_map.mp isNumber
    have otherFits := owner_fits built fits isOther
    rw [RingEntry.packed_div otherFits] at notBelow
    rcases standsBefore other isOther with ⟨-, otherBefore⟩ | ⟨-, precedes⟩
    · omega
    · exact (RingEntry.packed_le_packed_iff entryFits otherFits).mpr precedes
  · -- the hash lies behind the entry, and so behind every other
    have sameSide : ∀ other ∈ router.ring.toList,
        other.point < hash ∧ entry.precedes other = true := by
      intro other isOther
      rcases standsBefore other isOther with ⟨entryAfter, -⟩ | ⟨sameSide, precedes⟩
      · exact absurd entryAfter after
      · exact ⟨Nat.lt_of_not_le fun otherAfter => after (sameSide.mpr otherAfter), precedes⟩
    refine Or.inr ⟨?_, inRing, ?_⟩
    · intro number isNumber
      obtain ⟨other, isOther, rfl⟩ := List.mem_map.mp isNumber
      rw [RingEntry.packed_div (owner_fits built fits isOther)]
      exact (sameSide other isOther).1
    · intro number isNumber
      obtain ⟨other, isOther, rfl⟩ := List.mem_map.mp isNumber
      exact (RingEntry.packed_le_packed_iff entryFits (owner_fits built fits isOther)).mpr
        (sameSide other isOther).2

end Built

/-- Any hosts, as long as there are some and fewer than hashes, can be placed on a ring.  It
ascends and has a hundred entries for each host, at the hashes of the host's label with the
numbers below a hundred.  A key belongs to the owner of the successor of its hash. -/
theorem keys_arrive_at_successors (method : HashMethod) {hosts : List Host} (notEmpty : hosts ≠ [])
    (fits : hosts.length < 2 ^ 32) :
    ∃ router, build hosts method = .ok router ∧
      router.packedRing.Pairwise (· ≤ ·) ∧
      router.packedRing.length = 100 * hosts.length ∧
      (∀ (index : Nat) (host : Host), hosts[index]? = some host →
        (router.packedRing.filter fun number => number % 2 ^ 32 == index).length = 100 ∧
        ((router.packedRing.filter fun number => number % 2 ^ 32 == index).map (· / 2 ^ 32)).Perm
          ((List.range 100).map fun number =>
            method.hashText (label host.address ++ "-" ++ toString number))) ∧
      ∀ key, ∃ number, IsSuccessor router.packedRing (method.hashText key) number ∧
        router.hostIndex key = number % 2 ^ 32 := by
  obtain ⟨router, built⟩ := exists_build_eq_ok notEmpty method
  refine ⟨router, built, pairwise_packedRing built fits, length_packedRing built, ?_, ?_⟩
  · intro index host isHost
    have perm := highHalves_perm built fits isHost
    have lengthEq := perm.length_eq
    rw [List.length_map, List.length_map, List.length_range] at lengthEq
    exact ⟨lengthEq, perm⟩
  · intro key
    obtain ⟨-, -, methodEq, -⟩ := build_eq_ok built
    have isEntry := isFirstFrom_of_pairwise (pairwise_ring built)
      (entryFrom_eq built (method.hashText key))
    refine ⟨_, isSuccessor_entryFrom built fits _, ?_⟩
    rw [RingEntry.packed_mod (owner_fits built fits isEntry.mem), hostIndex, methodEq]
    rfl

/-- The same address may stand in the list twice, so that numbers differ in their low half
only. -/
theorem keys_arrive_at_successors_of_repeated :
    ∃ router, build [⟨"a:1"⟩, ⟨"b:1"⟩, ⟨"a:1"⟩] .crc32 = .ok router ∧
      router.packedRing.length = 300 ∧
      (router.packedRing.filter fun number => number % 2 ^ 32 == 2).length = 100 ∧
      ∃ number, IsSuccessor router.packedRing 0 number ∧ router.hostIndex "" = number % 2 ^ 32 := by
  obtain ⟨router, built, -, length, ofHost, ofKey⟩ :=
    keys_arrive_at_successors .crc32 (show [⟨"a:1"⟩, ⟨"b:1"⟩, (⟨"a:1"⟩ : Host)] ≠ [] by decide)
      (by decide)
  exact ⟨router, built, length, (ofHost 2 ⟨"a:1"⟩ rfl).1, ofKey ""⟩

end RingRouter

end CacheRouting
