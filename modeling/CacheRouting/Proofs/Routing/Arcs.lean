import CacheRouting.Proofs.Routing.Share
import CacheRouting.Proofs.Routing.Stats
import CacheRouting.Proofs.Routing.Successor
import CacheRouting.Routing.Scheduler

/-!
# Arcs of the ring

The arc of an entry reaches from the point before to its own, and the arc past the
last point belongs to the first entry.  Such an arc is as long as the number of
hashes that arrive at its entry, so the shares that are reported count the hashes
that go to each host.
-/

namespace CacheRouting

namespace RingRouter

/-- The owner of the first entry at or after a hash; past the last entry, `wrap`. -/
def ownerAlong (wrap : Nat) (entries : List RingEntry) (hash : Nat) : Nat :=
  ((entries.find? fun entry => hash ≤ entry.point).map (·.owner)).getD wrap

theorem ownerAlong_cons_of_le {wrap hash : Nat} {entry : RingEntry} {rest : List RingEntry}
    (reached : hash ≤ entry.point) : ownerAlong wrap (entry :: rest) hash = entry.owner := by
  simp [ownerAlong, reached]

theorem ownerAlong_cons_of_lt {wrap hash : Nat} {entry : RingEntry} {rest : List RingEntry}
    (passed : entry.point < hash) :
    ownerAlong wrap (entry :: rest) hash = ownerAlong wrap rest hash := by
  simp [ownerAlong, passed]

def countOf (hashes : Finset Nat) (ownerOf : Nat → Nat) (owner : Nat) : Nat :=
  (hashes.filter fun hash => ownerOf hash = owner).card

theorem countOf_union {first second : Finset Nat} (ownerOf : Nat → Nat) (owner : Nat)
    (apart : Disjoint first second) :
    countOf (first ∪ second) ownerOf owner = countOf first ownerOf owner + countOf second ownerOf owner := by
  rw [countOf, Finset.filter_union, Finset.card_union_of_disjoint]
  · rfl
  · exact Finset.disjoint_filter_filter apart

theorem countOf_congr {hashes : Finset Nat} {first second : Nat → Nat} (owner : Nat)
    (agree : ∀ hash ∈ hashes, first hash = second hash) :
    countOf hashes first owner = countOf hashes second owner := by
  rw [countOf, countOf, Finset.filter_congr fun hash member => by rw [agree hash member]]

theorem countOf_const (hashes : Finset Nat) (always owner : Nat) :
    countOf hashes (fun _ => always) owner = if always = owner then hashes.card else 0 := by
  by_cases same : always = owner <;> simp [countOf, same]

theorem getD_modify_add (counts : Array Nat) (owner amount index : Nat)
    (inside : index < counts.size) :
    (counts.modify owner (· + amount)).getD index 0 =
      counts.getD index 0 + if owner = index then amount else 0 := by
  simp only [Array.getD_eq_getD_getElem?, Array.getElem?_modify, Array.getElem?_eq_getElem inside]
  split <;> rfl

/-- The arcs count the hashes behind the point before, and one more for the owner of the arc
that wraps: it stands for the hash zero, from which the first arc starts. -/
theorem getD_addArcs (wrap : Nat) {previous index : Nat} (counts : Array Nat)
    {entries : List RingEntry}
    (ordered : entries.Pairwise fun first second => first.precedes second = true)
    (previousLt : previous < ringSize)
    (between : ∀ entry ∈ entries, previous ≤ entry.point ∧ entry.point < ringSize)
    (inside : index < counts.size) :
    (addArcs wrap previous counts entries).getD index 0 =
      counts.getD index 0 +
        countOf (Finset.Ioo previous ringSize) (ownerAlong wrap entries) index +
        if wrap = index then 1 else 0 := by
  induction entries generalizing previous counts with
  | nil =>
      have along : ownerAlong wrap [] = fun _ => wrap := rfl
      rw [addArcs, getD_modify_add counts wrap _ index inside, along, countOf_const, Nat.card_Ioo]
      split <;> omega
  | cons entry rest ih =>
      obtain ⟨entryPrecedes, restOrdered⟩ := List.pairwise_cons.mp ordered
      obtain ⟨⟨previousLe, entryLt⟩, restBetween⟩ := List.forall_mem_cons.mp between
      have restFrom : ∀ other ∈ rest, entry.point ≤ other.point ∧ other.point < ringSize := by
        intro other member
        have precedes := (RingEntry.precedes_iff entry other).mp (entryPrecedes other member)
        exact ⟨by omega, (restBetween other member).2⟩
      have parts : Finset.Ioo previous ringSize =
          Finset.Ioc previous entry.point ∪ Finset.Ioo entry.point ringSize := by
        ext hash
        simp only [Finset.mem_union, Finset.mem_Ioo, Finset.mem_Ioc]
        omega
      have apart : Disjoint (Finset.Ioc previous entry.point) (Finset.Ioo entry.point ringSize) := by
        rw [Finset.disjoint_left]
        intro hash inArc behind
        rw [Finset.mem_Ioc] at inArc
        rw [Finset.mem_Ioo] at behind
        omega
      have inArc : countOf (Finset.Ioc previous entry.point) (ownerAlong wrap (entry :: rest)) index =
          if entry.owner = index then entry.point - previous else 0 := by
        rw [countOf_congr index fun hash member =>
          ownerAlong_cons_of_le (Finset.mem_Ioc.mp member).2]
        rw [countOf_const, Nat.card_Ioc]
      have behind : countOf (Finset.Ioo entry.point ringSize) (ownerAlong wrap (entry :: rest)) index =
          countOf (Finset.Ioo entry.point ringSize) (ownerAlong wrap rest) index :=
        countOf_congr index fun hash member =>
          ownerAlong_cons_of_lt (Finset.mem_Ioo.mp member).1
      rw [addArcs, ih _ restOrdered entryLt restFrom (by simpa using inside),
        getD_modify_add counts _ _ index inside, parts, countOf_union _ _ apart, inArc, behind]
      omega

def hashCount (router : RingRouter) (index : Nat) : Nat :=
  countOf (Finset.range ringSize) router.ownerOf index

theorem hashCount_le (router : RingRouter) (index : Nat) : router.hashCount index ≤ 2 ^ 32 := by
  have atMost := Finset.card_filter_le (Finset.range ringSize) fun hash =>
    router.ownerOf hash = index
  rwa [Finset.card_range] at atMost

section Built

variable {hosts : List Host} {method : HashMethod} {router : RingRouter}

theorem ownerOf_eq_ownerAlong (built : build hosts method = .ok router) (hash : Nat) :
    router.ownerOf hash =
      ownerAlong (router.ring.getD 0 default).owner router.ring.toList hash := by
  have isEntry := entryFrom_eq built hash
  change (router.entryFrom hash).owner = _
  rw [ownerAlong]
  cases found : router.ring.toList.find? fun entry => decide (hash ≤ entry.point) with
  | some entry =>
      rw [found, Option.some_or, Option.some.injEq] at isEntry
      rw [isEntry]
      rfl
  | none =>
      rw [found, Option.none_or] at isEntry
      have first : router.ring.toList.head? = some (router.ring.getD 0 default) := by
        simp [List.head?_eq_getElem?, size_ring_pos built]
      rw [first, Option.some.injEq] at isEntry
      rw [isEntry]
      rfl

theorem point_lt_of_mem_ring (built : build hosts method = .ok router) {entry : RingEntry}
    (member : entry ∈ router.ring.toList) : entry.point < ringSize := by
  obtain ⟨-, -, -, perm⟩ := build_eq_ok built
  obtain ⟨host, -, number, -, pointEq⟩ := mem_placeAll_iff.mp (perm.mem_iff.mp member)
  rw [pointEq]
  exact UInt32.toNat_lt _

/-- The hash zero goes to the owner of the first entry, which the wrap leads to as well. -/
theorem ownerAlong_zero (router : RingRouter) :
    ownerAlong (router.ring.getD 0 default).owner router.ring.toList 0 =
      (router.ring.getD 0 default).owner := by
  obtain ⟨entries⟩ := router.ring
  cases entries with
  | nil => rfl
  | cons entry rest => simp [ownerAlong]

/-- The arcs of a host have as many hashes as go to it. -/
theorem getD_arcs (built : build hosts method = .ok router) {index : Nat}
    (inside : index < router.hosts.length) :
    router.arcs.getD index 0 = router.hashCount index := by
  have counted := getD_addArcs (router.ring.getD 0 default).owner
    (Array.replicate router.hosts.length 0) (pairwise_ring built) (Nat.two_pow_pos 32)
    (fun entry member => ⟨Nat.zero_le _, point_lt_of_mem_ring built member⟩) (by simpa using inside)
  have parts : Finset.range ringSize = {0} ∪ Finset.Ioo 0 ringSize := by
    have positive : 0 < ringSize := Nat.two_pow_pos 32
    ext hash
    simp only [Finset.mem_union, Finset.mem_Ioo, Finset.mem_singleton, Finset.mem_range]
    omega
  have apart : Disjoint ({0} : Finset Nat) (Finset.Ioo 0 ringSize) := by simp
  have atZero : countOf {0} router.ownerOf index =
      if (router.ring.getD 0 default).owner = index then 1 else 0 := by
    have owned : ∀ hash ∈ ({0} : Finset Nat),
        router.ownerOf hash = (router.ring.getD 0 default).owner := by
      intro hash member
      rw [Finset.mem_singleton.mp member, ownerOf_eq_ownerAlong built, ownerAlong_zero]
    rw [countOf_congr index owned, countOf_const, Finset.card_singleton]
  have behindZero : countOf (Finset.Ioo 0 ringSize) router.ownerOf index =
      countOf (Finset.Ioo 0 ringSize)
        (ownerAlong (router.ring.getD 0 default).owner router.ring.toList) index :=
    countOf_congr index fun hash _ => ownerOf_eq_ownerAlong built hash
  have noneBefore : (Array.replicate router.hosts.length 0).getD index 0 = 0 := by simp [inside]
  rw [noneBefore] at counted
  rw [arcs, counted, hashCount, parts, countOf_union _ _ apart, atZero, behindZero]
  omega

/-- Every hash goes to one of the hosts. -/
theorem sum_hashCount (built : build hosts method = .ok router) :
    ∑ index ∈ Finset.range router.hosts.length, router.hashCount index = ringSize := by
  have covered : ∀ hash ∈ Finset.range ringSize,
      router.ownerOf hash ∈ Finset.range router.hosts.length :=
    fun hash _ => Finset.mem_range.mpr (ownerOf_lt built hash)
  have fibers := Finset.card_eq_sum_card_fiberwise covered
  rw [Finset.card_range] at fibers
  exact fibers.symm

/-- The share of a host is reported in its row and its column, as a double that is exact. -/
theorem find?_stats (built : build hosts method = .ok router)
    (distinct : (router.hosts.map (·.address)).Nodup) {index : Nat} {host : Host}
    (isHost : router.hosts[index]? = some host) :
    (Scheduler.consistent router).stats.find? host.address =
      some ((Stats.unitRow 0 (mkRat (router.hashCount index) ringSize) router.hosts.length index).map
        Stats.shareToFloat) := by
  have inside := (List.getElem?_eq_some_iff.mp isHost).1
  rw [Scheduler.stats, Stats.find?_mapShares, ← getD_arcs built inside]
  exact congrArg (Option.map (·.map Stats.shareToFloat)) (Stats.find?_ofList_rows
    (fun _ index => Stats.unitRow 0 (mkRat (router.arcs.getD index 0) ringSize)
      router.hosts.length index) distinct isHost)

end Built

/-- Where no two hosts share an address, the share that is reported of a host, times the size
of the ring, is the number of hashes that go to the host.  All else in its row is zero, and
the hashes of all hosts are those that there are. -/
theorem shares_count_hashes {hosts : List Host} {method : HashMethod} {router : RingRouter}
    (built : build hosts method = .ok router) (distinct : (hosts.map (·.address)).Nodup) :
    (∀ (index : Nat) (host : Host), router.hosts[index]? = some host →
      ∃ row, (Scheduler.consistent router).stats.find? host.address = some row ∧
        row.length = router.hosts.length ∧
        (∃ share value, row[index]? = some share ∧ Double.value? share = some value ∧
          2 ^ 32 * value = router.hashCount index) ∧
        ∀ (column : Nat) (other : Float), column ≠ index → row[column]? = some other → other = 0) ∧
    ∑ index ∈ Finset.range router.hosts.length, router.hashCount index = 2 ^ 32 := by
  refine ⟨?_, sum_hashCount built⟩
  intro index host isHost
  have inside := (List.getElem?_eq_some_iff.mp isHost).1
  obtain ⟨-, hostsEq, -, -⟩ := build_eq_ok built
  refine ⟨_, find?_stats built (hostsEq ▸ distinct) isHost, ?_, ?_, ?_⟩
  · rw [List.length_map, Stats.length_unitRow]
  · have size : ((2 ^ 32 : Nat) : Rat) = 2 ^ 32 := by norm_num
    refine ⟨_, _, ?_, Double.value?_shareToFloat_mkRat (router.hashCount_le index), ?_⟩
    · rw [List.getElem?_map, Stats.getElem?_unitRow_self _ _ inside]
      rfl
    · rw [Rat.mkRat_eq_div, size]
      field_simp
      rfl
  · intro column other different has
    rw [List.getElem?_map] at has
    obtain ⟨share, isShare, rfl⟩ := Option.map_eq_some_iff.mp has
    rw [Stats.eq_zero_of_getElem?_unitRow different isShare]
    rfl

/-- The points of different addresses may coincide. -/
theorem shares_count_hashes_of_one_label :
    ∃ router, build [⟨"a"⟩, ⟨"a:11211"⟩] .crc32 = .ok router ∧
      (∃ row, (Scheduler.consistent router).stats.find? "a:11211" = some row ∧ row.length = 2 ∧
        ∃ share value, row[1]? = some share ∧ Double.value? share = some value ∧
          2 ^ 32 * value = router.hashCount 1) ∧
      router.hashCount 0 + router.hashCount 1 = 2 ^ 32 := by
  obtain ⟨router, built⟩ := exists_build_eq_ok
    (show [(⟨"a"⟩ : Host), ⟨"a:11211"⟩] ≠ [] by decide) .crc32
  obtain ⟨-, hostsEq, -, -⟩ := build_eq_ok built
  obtain ⟨rows, total⟩ := shares_count_hashes built (by decide)
  rw [hostsEq] at rows total
  obtain ⟨row, has, length, share, -⟩ := rows 1 ⟨"a:11211"⟩ rfl
  rw [List.length_cons, List.length_singleton, Finset.sum_range_succ, Finset.sum_range_one] at total
  exact ⟨router, built, ⟨row, has, length, share⟩, total⟩

end RingRouter

end CacheRouting
