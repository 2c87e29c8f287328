import CacheRouting.Proofs.Routing.Ring

/-!
# The successor of a hash

Entries are in a linear order, by point and then by owner, and a ring that has
been built stands in this order.  So the binary search finds the first entry at
or after a hash, which is the first of all entries when the ring is read from
that hash on.  Which entry this is depends on the set of entries alone.
-/

namespace CacheRouting

/-- The test holds below the partition point and fails from there on, provided that below
an index where it holds it always holds. -/
theorem partitionPoint_spec (holds : Nat → Bool) (low high : Nat)
    (closed : ∀ first second, first ≤ second → second < high → holds second = true →
      holds first = true) :
    (∀ index, low ≤ index → index < partitionPoint holds low high → holds index = true) ∧
      ∀ index, partitionPoint holds low high ≤ index → index < high → holds index = false := by
  fun_induction partitionPoint holds low high with
  | case1 low high inside middle middleHolds ih =>
      obtain ⟨below, above⟩ := ih closed
      refine ⟨?_, above⟩
      intro index lowLe indexLt
      by_cases inUpperHalf : middle + 1 ≤ index
      · exact below index inUpperHalf indexLt
      · exact closed index middle (by omega) (by omega) middleHolds
  | case2 low high inside middle middleFails ih =>
      obtain ⟨below, above⟩ := ih fun first second ordered secondLt =>
        closed first second ordered (by omega)
      refine ⟨below, ?_⟩
      intro index pointLe indexLt
      by_cases inLowerHalf : index < middle
      · exact above index pointLe inLowerHalf
      · cases atIndex : holds index with
        | false => rfl
        | true => exact absurd (closed middle index (by omega) indexLt atIndex) middleFails
  | case3 low high outside =>
      exact ⟨fun index lowLe indexLt => by omega, fun index lowLe indexLt => by omega⟩

namespace RingEntry

theorem precedes_iff (first second : RingEntry) :
    first.precedes second = true ↔
      first.point < second.point ∨ first.point = second.point ∧ first.owner ≤ second.owner := by
  simp [precedes]

theorem precedes_trans (first second third : RingEntry) (before : first.precedes second = true)
    (after : second.precedes third = true) : first.precedes third = true := by
  rw [precedes_iff] at *
  omega

theorem precedes_total (first second : RingEntry) :
    (first.precedes second || second.precedes first) = true := by
  rw [Bool.or_eq_true, precedes_iff, precedes_iff]
  omega

theorem precedes_antisymm {first second : RingEntry} (before : first.precedes second = true)
    (after : second.precedes first = true) : first = second := by
  rw [precedes_iff] at *
  rw [RingEntry.mk.injEq]
  omega

end RingEntry

namespace RingRouter

theorem isSorted_of_pairwise {entries : List RingEntry}
    (ordered : entries.Pairwise fun first second => first.precedes second = true) :
    isSorted entries = true := by
  induction entries with
  | nil => rfl
  | cons first rest ih =>
      obtain ⟨firstPrecedes, restOrdered⟩ := List.pairwise_cons.mp ordered
      cases rest with
      | nil => rfl
      | cons second rest =>
          rw [isSorted, firstPrecedes second List.mem_cons_self, ih restOrdered]
          rfl

/-- Any hosts, as long as there are some, can be placed on a ring. -/
theorem exists_build_eq_ok {hosts : List Host} (notEmpty : hosts ≠ []) (method : HashMethod) :
    ∃ router, build hosts method = .ok router := by
  have sorted := isSorted_of_pairwise
    (List.pairwise_mergeSort RingEntry.precedes_trans RingEntry.precedes_total
      (placeAll method hosts))
  refine ⟨⟨hosts, ((placeAll method hosts).mergeSort RingEntry.precedes).toArray, method⟩, ?_⟩
  rw [build, if_neg (by simpa using notEmpty)]
  exact if_pos sorted

theorem pairwise_ring {hosts : List Host} {method : HashMethod} {router : RingRouter}
    (built : build hosts method = .ok router) :
    router.ring.toList.Pairwise fun first second => first.precedes second = true := by
  unfold build at built
  split at built
  · cases built
  · dsimp only at built
    split at built
    · cases built
      exact List.pairwise_mergeSort RingEntry.precedes_trans RingEntry.precedes_total _
    · cases built

/-- An entry belongs to a host by one of the points of the host's address. -/
theorem mem_placeAll_iff {method : HashMethod} {hosts : List Host} {entry : RingEntry} :
    entry ∈ placeAll method hosts ↔
      ∃ host, hosts[entry.owner]? = some host ∧
        ∃ number < pointsPerHost, entry.point = method.hashText (placement host.address number) := by
  rw [placeAll, List.mem_flatMap]
  constructor
  · rintro ⟨⟨host, owner⟩, isHost, isEntry⟩
    obtain ⟨number, inRange, rfl⟩ := List.mem_map.mp isEntry
    exact ⟨host, List.mem_zipIdx_iff_getElem?.mp isHost, number, List.mem_range.mp inRange, rfl⟩
  · rintro ⟨host, isHost, number, inRange, pointEq⟩
    refine ⟨(host, entry.owner), List.mem_zipIdx_iff_getElem?.mpr isHost, ?_⟩
    exact List.mem_map.mpr ⟨number, List.mem_range.mpr inRange, by rw [← pointEq]⟩

/-- On the way around the ring from a hash on, the first entry stands no later than the
second: an entry that lies before the hash comes after those that do not. -/
def StandsBefore (hash : Nat) (first second : RingEntry) : Prop :=
  hash ≤ first.point ∧ second.point < hash ∨
    (hash ≤ first.point ↔ hash ≤ second.point) ∧ first.precedes second = true

structure IsFirstFrom (hash : Nat) (entries : List RingEntry) (entry : RingEntry) : Prop where
  mem : entry ∈ entries
  standsBefore : ∀ other ∈ entries, StandsBefore hash entry other

theorem StandsBefore.antisymm {hash : Nat} {first second : RingEntry}
    (before : StandsBefore hash first second) (after : StandsBefore hash second first) :
    first = second := by
  rcases before with ⟨firstAfter, secondBefore⟩ | ⟨sameSide, precedes⟩
  · rcases after with ⟨secondAfter, -⟩ | ⟨otherSide, -⟩
    · omega
    · have := otherSide.mpr firstAfter
      omega
  · rcases after with ⟨secondAfter, firstBefore⟩ | ⟨-, follows⟩
    · have := sameSide.mpr secondAfter
      omega
    · exact RingEntry.precedes_antisymm precedes follows

theorem IsFirstFrom.eq {hash : Nat} {entries : List RingEntry} {first second : RingEntry}
    (firstIs : IsFirstFrom hash entries first) (secondIs : IsFirstFrom hash entries second) :
    first = second :=
  (firstIs.standsBefore second secondIs.mem).antisymm (secondIs.standsBefore first firstIs.mem)

def entryFrom (router : RingRouter) (hash : Nat) : RingEntry :=
  router.ring.getD (router.successor hash) default

section Built

variable {hosts : List Host} {method : HashMethod} {router : RingRouter}

theorem isBefore_eq (router : RingRouter) (hash : Nat) {index : Nat}
    (inside : index < router.ring.toList.length) :
    router.isBefore hash index = decide (router.ring.toList[index].point < hash) := by
  have insideRing : index < router.ring.size := inside
  simp [isBefore, insideRing]

theorem isBefore_of_le (built : build hosts method = .ok router) (hash first second : Nat)
    (ordered : first ≤ second) (secondLt : second < router.ring.toList.length)
    (secondBefore : router.isBefore hash second = true) : router.isBefore hash first = true := by
  have firstLt : first < router.ring.toList.length := by omega
  rw [isBefore_eq router hash firstLt, decide_eq_true_eq]
  rw [isBefore_eq router hash secondLt, decide_eq_true_eq] at secondBefore
  rcases Nat.lt_or_eq_of_le ordered with less | rfl
  · have precedes := List.pairwise_iff_getElem.mp (pairwise_ring built) first second
      firstLt secondLt less
    rw [RingEntry.precedes_iff] at precedes
    omega
  · exact secondBefore

/-- The binary search and the wrap come to a walk along the ring: the first entry at or after
the hash, or else the first entry. -/
theorem entryFrom_eq (built : build hosts method = .ok router) (hash : Nat) :
    some (router.entryFrom hash) =
      (router.ring.toList.find? fun entry => hash ≤ entry.point).or router.ring.toList.head? := by
  have sizeEq : router.ring.toList.length = router.ring.size := rfl
  obtain ⟨below, above⟩ := partitionPoint_spec (router.isBefore hash) 0 router.ring.size
    (isBefore_of_le built hash)
  have pointLe := partitionPoint_le (router.isBefore hash) (Nat.zero_le router.ring.size)
  rw [entryFrom, successor]
  generalize partitionPoint (router.isBefore hash) 0 router.ring.size = point at *
  split
  · next atEnd =>
    have noneAfter : router.ring.toList.find? (fun entry => hash ≤ entry.point) = none := by
      rw [List.find?_eq_none]
      intro entry member
      obtain ⟨index, inside, rfl⟩ := List.mem_iff_getElem.mp member
      have before := below index (Nat.zero_le index) (by omega)
      rw [isBefore_eq router hash inside] at before
      simpa using before
    rw [noneAfter, Option.none_or, List.head?_eq_getElem?]
    have first := size_ring_pos built
    simp [first]
  · next notAtEnd =>
    have inside : point < router.ring.size := by omega
    have found : router.ring.toList.find? (fun entry => hash ≤ entry.point) =
        some router.ring.toList[point] := by
      rw [List.find?_eq_some_iff_getElem]
      refine ⟨?_, _, inside, rfl, ?_⟩
      · have after := above _ (Nat.le_refl _) inside
        rw [isBefore_eq router hash inside] at after
        simpa using after
      · intro index indexLt
        have before := below index (Nat.zero_le index) indexLt
        rw [isBefore_eq router hash (by omega)] at before
        simpa using before
    rw [found, Option.some_or]
    simp [inside]

theorem precedes_of_mem_cons {first other : RingEntry} {rest : List RingEntry}
    (ordered : (first :: rest).Pairwise fun first second => first.precedes second = true)
    (member : other ∈ first :: rest) : first.precedes other = true := by
  rcases List.mem_cons.mp member with rfl | inRest
  · simp [RingEntry.precedes]
  · exact (List.pairwise_cons.mp ordered).1 other inRest

theorem isFirstFrom_of_pairwise {entries : List RingEntry} {hash : Nat} {entry : RingEntry}
    (ordered : entries.Pairwise fun first second => first.precedes second = true)
    (isEntry : some entry = (entries.find? fun entry => hash ≤ entry.point).or entries.head?) :
    IsFirstFrom hash entries entry := by
  cases found : entries.find? fun entry => decide (hash ≤ entry.point) with
  | some first =>
      rw [found, Option.some_or, Option.some.injEq] at isEntry
      subst isEntry
      obtain ⟨after, earlier, later, rfl, earlierBefore⟩ := List.find?_eq_some_iff_append.mp found
      obtain ⟨-, fromEntry, -⟩ := List.pairwise_append.mp ordered
      refine ⟨by simp, ?_⟩
      intro other member
      have entryAfter : hash ≤ entry.point := of_decide_eq_true after
      rcases List.mem_append.mp member with inEarlier | fromHere
      · exact Or.inl ⟨entryAfter, by simpa using earlierBefore other inEarlier⟩
      · have precedes := precedes_of_mem_cons fromEntry fromHere
        have pointLe := (RingEntry.precedes_iff entry other).mp precedes
        exact Or.inr ⟨⟨fun _ => by omega, fun _ => entryAfter⟩, precedes⟩
  | none =>
      rw [found, Option.none_or] at isEntry
      have allBefore : ∀ other ∈ entries, other.point < hash := by
        simpa using List.find?_eq_none.mp found
      obtain ⟨later, rfl⟩ := List.head?_eq_some_iff.mp isEntry.symm
      refine ⟨List.mem_cons_self, ?_⟩
      intro other member
      have precedes := precedes_of_mem_cons ordered member
      have entryBefore := allBefore entry List.mem_cons_self
      have otherBefore := allBefore other member
      exact Or.inr ⟨⟨fun _ => by omega, fun _ => by omega⟩, precedes⟩

theorem isFirstFrom_entryFrom (built : build hosts method = .ok router) (hash : Nat) :
    IsFirstFrom hash (placeAll method hosts) (router.entryFrom hash) := by
  obtain ⟨-, -, -, perm⟩ := build_eq_ok built
  have first := isFirstFrom_of_pairwise (pairwise_ring built) (entryFrom_eq built hash)
  exact ⟨perm.mem_iff.mp first.mem,
    fun other member => first.standsBefore other (perm.mem_iff.mpr member)⟩

end Built

end RingRouter

end CacheRouting
