import CacheRouting.Proofs.Routing.Scheduler
import CacheRouting.Proofs.Routing.Successor

/-!
# Inserting a host

A host that is inserted brings its own entries to the ring and leaves the others
in their order, ties included, since the owners behind it all move up by one.  So
the first entry from a hash on is one of the new host, or the one that was first
before.
-/

namespace CacheRouting

/-- The index, after an insertion at a position, of what stood at an index before. -/
def indexAfterInsertion (position index : Nat) : Nat :=
  if index < position then index else index + 1

theorem indexAfterInsertion_le_iff (position first second : Nat) :
    indexAfterInsertion position first ≤ indexAfterInsertion position second ↔ first ≤ second := by
  unfold indexAfterInsertion
  split <;> split <;> omega

theorem exists_indexAfterInsertion_eq {position index : Nat} (different : index ≠ position) :
    ∃ before, indexAfterInsertion position before = index := by
  by_cases earlier : index < position
  · exact ⟨index, if_pos earlier⟩
  · refine ⟨index - 1, ?_⟩
    rw [indexAfterInsertion, if_neg (by omega)]
    omega

theorem getElem?_insertIdx_indexAfterInsertion {Item : Type} (items : List Item) (item : Item)
    (position index : Nat) :
    (items.insertIdx position item)[indexAfterInsertion position index]? = items[index]? := by
  rw [List.getElem?_insertIdx, indexAfterInsertion]
  split
  · rfl
  · next later =>
    rw [if_neg (by omega), if_neg (by omega)]
    rfl

def RingEntry.afterInsertion (position : Nat) (entry : RingEntry) : RingEntry :=
  { entry with owner := indexAfterInsertion position entry.owner }

theorem RingEntry.precedes_afterInsertion (position : Nat) (first second : RingEntry) :
    (first.afterInsertion position).precedes (second.afterInsertion position) =
      first.precedes second := by
  rw [Bool.eq_iff_iff, precedes_iff, precedes_iff]
  simp only [afterInsertion, indexAfterInsertion_le_iff]

namespace RingRouter

theorem standsBefore_afterInsertion (hash position : Nat) (first second : RingEntry) :
    StandsBefore hash (first.afterInsertion position) (second.afterInsertion position) ↔
      StandsBefore hash first second := by
  rw [StandsBefore, RingEntry.precedes_afterInsertion]
  rfl

section Insertion

variable {method : HashMethod} {hosts : List Host} {inserted : Host} {position : Nat}

theorem afterInsertion_mem_placeAll {entry : RingEntry} (member : entry ∈ placeAll method hosts) :
    entry.afterInsertion position ∈ placeAll method (hosts.insertIdx position inserted) := by
  obtain ⟨host, isHost, isPoint⟩ := mem_placeAll_iff.mp member
  refine mem_placeAll_iff.mpr ⟨host, ?_, isPoint⟩
  rw [← isHost]
  exact getElem?_insertIdx_indexAfterInsertion hosts inserted position entry.owner

/-- The entries that the inserted host does not own were there before. -/
theorem exists_mem_placeAll_of_owner_ne {entry : RingEntry}
    (member : entry ∈ placeAll method (hosts.insertIdx position inserted))
    (different : entry.owner ≠ position) :
    ∃ before ∈ placeAll method hosts, before.afterInsertion position = entry := by
  obtain ⟨host, isHost, isPoint⟩ := mem_placeAll_iff.mp member
  obtain ⟨owner, ownerEq⟩ := exists_indexAfterInsertion_eq different
  refine ⟨⟨entry.point, owner⟩, mem_placeAll_iff.mpr ⟨host, ?_, isPoint⟩, ?_⟩
  · rwa [← ownerEq, getElem?_insertIdx_indexAfterInsertion] at isHost
  · rw [RingEntry.afterInsertion, ownerEq]

/-- The first entry from a hash on is one of the inserted host or the one that was first
before. -/
theorem isFirstFrom_before_insertion {hash : Nat} {entry : RingEntry}
    (first : IsFirstFrom hash (placeAll method (hosts.insertIdx position inserted)) entry)
    (different : entry.owner ≠ position) :
    ∃ before, IsFirstFrom hash (placeAll method hosts) before ∧
      before.afterInsertion position = entry := by
  obtain ⟨before, member, rfl⟩ := exists_mem_placeAll_of_owner_ne first.mem different
  refine ⟨before, ⟨member, ?_⟩, rfl⟩
  intro other otherMember
  rw [← standsBefore_afterInsertion hash position]
  exact first.standsBefore _ (afterInsertion_mem_placeAll otherMember)

variable {before after : RingRouter}

theorem ownerOf_insertIdx (builtBefore : build hosts method = .ok before)
    (builtAfter : build (hosts.insertIdx position inserted) method = .ok after) {hash : Nat}
    (different : after.ownerOf hash ≠ position) :
    after.ownerOf hash = indexAfterInsertion position (before.ownerOf hash) := by
  obtain ⟨entry, first, entryEq⟩ :=
    isFirstFrom_before_insertion (isFirstFrom_entryFrom builtAfter hash) different
  have same := first.eq (isFirstFrom_entryFrom builtBefore hash)
  subst same
  exact congrArg RingEntry.owner entryEq.symm

theorem hostsFor_insertIdx (builtBefore : build hosts method = .ok before)
    (builtAfter : build (hosts.insertIdx position inserted) method = .ok after) {key : String}
    (sameHost : after.hostIndex key = indexAfterInsertion position (before.hostIndex key)) :
    (Scheduler.consistent after).hostsFor key = (Scheduler.consistent before).hostsFor key := by
  obtain ⟨-, hostsBefore, -, -⟩ := build_eq_ok builtBefore
  obtain ⟨-, hostsAfter, -, -⟩ := build_eq_ok builtAfter
  simp only [Scheduler.hostsFor, Scheduler.route, route, Scheduler.hosts, hostsBefore, hostsAfter,
    sameHost, List.filterMap_cons, List.filterMap_nil, getElem?_insertIdx_indexAfterInsertion]

/-- A key that the inserted host does not get stays where it was. -/
theorem hostIndex_insertIdx (builtBefore : build hosts method = .ok before)
    (builtAfter : build (hosts.insertIdx position inserted) method = .ok after) {key : String}
    (different : after.hostIndex key ≠ position) :
    after.hostIndex key = indexAfterInsertion position (before.hostIndex key) := by
  obtain ⟨-, -, methodBefore, -⟩ := build_eq_ok builtBefore
  obtain ⟨-, -, methodAfter, -⟩ := build_eq_ok builtAfter
  rw [hostIndex, methodAfter] at different ⊢
  rw [hostIndex, methodBefore]
  exact ownerOf_insertIdx builtBefore builtAfter different

end Insertion

/-- Inserting a host moves keys to this host only, and removing a host moves only the keys it
had: every other key keeps its host, whose index changes as the list does. -/
theorem keys_move_only_with_their_host (method : HashMethod) :
    (∀ (hosts : List Host) (inserted : Host) (position : Nat), hosts ≠ [] →
      ∃ before after, build hosts method = .ok before ∧
        build (hosts.insertIdx position inserted) method = .ok after ∧
        ∀ key, after.hostIndex key ≠ position →
          after.hostIndex key = indexAfterInsertion position (before.hostIndex key) ∧
            (Scheduler.consistent after).hostsFor key =
              (Scheduler.consistent before).hostsFor key) ∧
    ∀ (hosts : List Host) (position : Nat), position < hosts.length → 1 < hosts.length →
      ∃ before after, build hosts method = .ok before ∧
        build (hosts.eraseIdx position) method = .ok after ∧
        ∀ key, before.hostIndex key ≠ position →
          before.hostIndex key = indexAfterInsertion position (after.hostIndex key) ∧
            (Scheduler.consistent before).hostsFor key =
              (Scheduler.consistent after).hostsFor key := by
  constructor
  · intro hosts inserted position notEmpty
    have grown : hosts.insertIdx position inserted ≠ [] :=
      List.ne_nil_of_length_pos
        (Nat.lt_of_lt_of_le (List.length_pos_iff.mpr notEmpty) List.length_le_length_insertIdx)
    obtain ⟨before, builtBefore⟩ := exists_build_eq_ok notEmpty method
    obtain ⟨after, builtAfter⟩ := exists_build_eq_ok grown method
    refine ⟨before, after, builtBefore, builtAfter, ?_⟩
    intro key different
    have sameHost := hostIndex_insertIdx builtBefore builtAfter different
    exact ⟨sameHost, hostsFor_insertIdx builtBefore builtAfter sameHost⟩
  · intro hosts position inside several
    have left : hosts.eraseIdx position ≠ [] := by
      rw [← List.length_pos_iff, List.length_eraseIdx_of_lt inside]
      omega
    have inserted : (hosts.eraseIdx position).insertIdx position hosts[position] = hosts :=
      List.insertIdx_eraseIdx_getElem inside
    obtain ⟨before, builtBefore⟩ := exists_build_eq_ok
      (List.ne_nil_of_length_pos (Nat.lt_of_le_of_lt (Nat.zero_le position) inside)) method
    obtain ⟨after, builtAfter⟩ := exists_build_eq_ok left method
    refine ⟨before, after, builtBefore, builtAfter, ?_⟩
    rw [← inserted] at builtBefore
    intro key different
    have sameHost := hostIndex_insertIdx builtAfter builtBefore different
    exact ⟨sameHost, hostsFor_insertIdx builtAfter builtBefore sameHost⟩

/-- The host may stand in the list already, so that all its points coincide with others. -/
theorem keys_move_only_with_their_host_when_repeated :
    (∃ before after, build [⟨"a:1"⟩, ⟨"b:1"⟩] .crc32 = .ok before ∧
      build [⟨"a:1"⟩, ⟨"b:1"⟩, ⟨"b:1"⟩] .crc32 = .ok after ∧
      ∀ key, after.hostIndex key ≠ 1 →
        after.hostIndex key = indexAfterInsertion 1 (before.hostIndex key)) ∧
    ∃ before after, build [⟨"a:1"⟩, ⟨"b:1"⟩, ⟨"b:1"⟩] .crc32 = .ok before ∧
      build [⟨"a:1"⟩, ⟨"b:1"⟩] .crc32 = .ok after ∧
      ∀ key, before.hostIndex key ≠ 2 →
        before.hostIndex key = indexAfterInsertion 2 (after.hostIndex key) := by
  constructor
  · obtain ⟨before, after, builtBefore, builtAfter, others⟩ :=
      (keys_move_only_with_their_host .crc32).1 [⟨"a:1"⟩, ⟨"b:1"⟩] ⟨"b:1"⟩ 1 (by decide)
    exact ⟨before, after, builtBefore, builtAfter, fun key different => (others key different).1⟩
  · obtain ⟨before, after, builtBefore, builtAfter, others⟩ :=
      (keys_move_only_with_their_host .crc32).2 [⟨"a:1"⟩, ⟨"b:1"⟩, ⟨"b:1"⟩] 2 (by decide) (by decide)
    exact ⟨before, after, builtBefore, builtAfter, fun key different => (others key different).1⟩

end RingRouter

end CacheRouting
