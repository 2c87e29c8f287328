import CacheRouting.Proofs.Routing.Arcs
import CacheRouting.Proofs.Sequence

/-!
# Columns of what is reported

Each host has a column of its own, but the rows are those of addresses: of several
hosts with one address only the last has its row reported, and the columns of the
others are zero.  On the ring the hashes of such an address go to the first of its
hosts, so that no column accounts for them.
-/

namespace CacheRouting

namespace Stats

def columnSum? (stats : Stats Float) (column : Nat) : Option Rat :=
  (stats.entries.mapM fun entry => entry.2[column]?.bind Double.value?).map List.sum

def total? (stats : Stats Float) : Option Rat :=
  ((stats.entries.flatMap (·.2)).mapM Double.value?).map List.sum

def columnSum (stats : Stats Rat) (column : Nat) : Rat :=
  (stats.entries.map fun entry => entry.2.getD column 0).sum

def total (stats : Stats Rat) : Rat :=
  (stats.entries.flatMap (·.2)).sum

/-- All rows have this width, and doubles hold all of their shares. -/
structure IsExact (stats : Stats Rat) (width : Nat) : Prop where
  length_eq : ∀ entry ∈ stats.entries, entry.2.length = width
  value?_eq : ∀ entry ∈ stats.entries, ∀ share ∈ entry.2,
    Double.value? (shareToFloat share) = some share

section Exact

variable {stats : Stats Rat} {width : Nat}

theorem columnSum?_mapShares (exact : stats.IsExact width) {column : Nat}
    (inside : column < width) :
    (stats.mapShares shareToFloat).columnSum? column = some (stats.columnSum column) := by
  have reads : ∀ entry ∈ stats.entries,
      (entry.2.map shareToFloat)[column]?.bind Double.value? = some (entry.2.getD column 0) := by
    intro entry member
    have insideRow : column < entry.2.length := exact.length_eq entry member ▸ inside
    rw [List.getElem?_map, List.getElem?_eq_getElem insideRow, List.getD_eq_getElem _ _ insideRow]
    exact exact.value?_eq entry member _ (List.getElem_mem insideRow)
  rw [columnSum?, mapShares, List.mapM_map]
  exact congrArg (Option.map List.sum) (mapM_eq_some reads)

theorem total?_mapShares (exact : stats.IsExact width) :
    (stats.mapShares shareToFloat).total? = some stats.total := by
  have flattened : (stats.mapShares shareToFloat).entries.flatMap (·.2) =
      (stats.entries.flatMap (·.2)).map shareToFloat := by
    rw [mapShares, List.flatMap_map, List.map_flatMap]
  have reads : ∀ share ∈ stats.entries.flatMap (·.2),
      Double.value? (shareToFloat share) = some share := by
    intro share member
    obtain ⟨entry, isEntry, inRow⟩ := List.mem_flatMap.mp member
    exact exact.value?_eq entry isEntry share inRow
  rw [total?, flattened, List.mapM_map]
  exact congrArg (Option.map List.sum) (mapM_eq_some_self reads)

theorem nodup_entries (stats : Stats Rat) : stats.entries.Nodup :=
  (Dictionary.nodup_keys stats).of_map

/-- All columns together have all numbers. -/
theorem sum_columnSum (exact : stats.IsExact width) :
    ∑ column ∈ Finset.range width, stats.columnSum column = stats.total := by
  have sumRow : ∀ entry ∈ stats.entries,
      ∑ column ∈ Finset.range width, entry.2.getD column 0 = entry.2.sum := by
    intro entry member
    rw [← exact.length_eq entry member, Finset.sum_range, ← Fin.sum_univ_getElem]
    exact Finset.sum_congr rfl fun column _ => List.getD_eq_getElem _ _ column.isLt
  calc ∑ column ∈ Finset.range width, stats.columnSum column
      = ∑ column ∈ Finset.range width, ∑ entry ∈ stats.entries.toFinset,
          entry.2.getD column 0 :=
        Finset.sum_congr rfl fun column _ => (List.sum_toFinset _ stats.nodup_entries).symm
    _ = ∑ entry ∈ stats.entries.toFinset, entry.2.sum := by
        rw [Finset.sum_comm]
        exact Finset.sum_congr rfl fun entry member => sumRow entry (List.mem_toFinset.mp member)
    _ = stats.total := by
        rw [List.sum_toFinset _ stats.nodup_entries, total, List.flatMap_def, List.sum_flatten,
          List.map_map]
        rfl

end Exact

def ofHosts (hosts : List Host) (share : Nat → Rat) : Stats Rat :=
  Dictionary.ofList (hosts.zipIdx.map fun (host, index) =>
    (host.address, unitRow 0 (share index) hosts.length index))

def IsFirstNamed (hosts : List Host) (index : Nat) : Prop :=
  ∀ host ∈ hosts[index]?, host.address ∉ (hosts.map (·.address)).take index

instance (hosts : List Host) (index : Nat) : Decidable (IsFirstNamed hosts index) :=
  inferInstanceAs (Decidable (∀ host ∈ hosts[index]?, _ ∉ _))

def IsLastNamed (hosts : List Host) (index : Nat) : Prop :=
  ∀ host ∈ hosts[index]?, host.address ∉ (hosts.map (·.address)).drop (index + 1)

instance (hosts : List Host) (index : Nat) : Decidable (IsLastNamed hosts index) :=
  inferInstanceAs (Decidable (∀ host ∈ hosts[index]?, _ ∉ _))

section Hosts

variable {hosts : List Host} {share : Nat → Rat}

theorem mem_entries_ofHosts_iff {address : String} {row : List Rat} :
    (address, row) ∈ (ofHosts hosts share).entries ↔
      ∃ index host, hosts[index]? = some host ∧ IsLastNamed hosts index ∧
        address = host.address ∧ row = unitRow 0 (share index) hosts.length index := by
  rw [ofHosts, Dictionary.mem_entries_ofList_iff,
    map_fst_rows fun _ index => unitRow 0 (share index) hosts.length index]
  simp only [List.getElem?_map, List.getElem?_zipIdx, Option.map_map, Option.map_eq_some_iff,
    Function.comp_apply, Prod.mk.injEq, Nat.zero_add]
  constructor
  · rintro ⟨index, ⟨host, isHost, rfl, rfl⟩, notLater⟩
    refine ⟨index, host, isHost, ?_, rfl, rfl⟩
    intro other isOther
    rwa [← Option.some.inj (isHost.symm.trans isOther)]
  · rintro ⟨index, host, isHost, isLast, rfl, rfl⟩
    exact ⟨index, ⟨host, isHost, rfl, rfl⟩, isLast host isHost⟩

theorem getD_unitRow_self {share : Rat} {width column : Nat} (inside : column < width) :
    (unitRow 0 share width column).getD column 0 = share := by
  rw [List.getD_eq_getElem?_getD, getElem?_unitRow_self _ _ inside, Option.getD_some]

theorem getD_unitRow_of_ne {share : Rat} {width column index : Nat} (different : index ≠ column) :
    (unitRow 0 share width column).getD index 0 = 0 := by
  rw [List.getD_eq_getElem?_getD]
  cases has : (unitRow 0 share width column)[index]? with
  | none => rfl
  | some other => exact eq_zero_of_getElem?_unitRow different has

/-- No row but that of the host itself has anything in its column. -/
theorem getD_of_mem_ofHosts {column : Nat} {host : Host} {entry : String × List Rat}
    (isHost : hosts[column]? = some host) (member : entry ∈ (ofHosts hosts share).entries)
    (elsewhere : IsLastNamed hosts column →
      entry ≠ (host.address, unitRow 0 (share column) hosts.length column)) :
    entry.2.getD column 0 = 0 := by
  obtain ⟨address, row⟩ := entry
  obtain ⟨index, other, isOther, isLast, rfl, rfl⟩ := mem_entries_ofHosts_iff.mp member
  apply getD_unitRow_of_ne
  rintro rfl
  rw [← Option.some.inj (isHost.symm.trans isOther)] at elsewhere
  exact elsewhere isLast rfl

/-- The share of a host is in its column unless the row is that of a later host. -/
theorem columnSum_ofHosts {column : Nat} {host : Host} (isHost : hosts[column]? = some host) :
    (ofHosts hosts share).columnSum column = if IsLastNamed hosts column then share column else 0 := by
  rw [columnSum, ← List.sum_toFinset _ (nodup_entries _)]
  by_cases isLast : IsLastNamed hosts column
  · have isEntry : (host.address, unitRow 0 (share column) hosts.length column) ∈
        (ofHosts hosts share).entries :=
      mem_entries_ofHosts_iff.mpr ⟨column, host, isHost, isLast, rfl, rfl⟩
    rw [if_pos isLast, Finset.sum_eq_single_of_mem _ (List.mem_toFinset.mpr isEntry)]
    · exact getD_unitRow_self (List.getElem?_eq_some_iff.mp isHost).1
    · intro entry member different
      exact getD_of_mem_ofHosts isHost (List.mem_toFinset.mp member) fun _ => different
  · rw [if_neg isLast]
    apply Finset.sum_eq_zero
    intro entry member
    exact getD_of_mem_ofHosts isHost (List.mem_toFinset.mp member) fun last => absurd last isLast

theorem isExact_ofHosts (exact : ∀ index < hosts.length,
    Double.value? (shareToFloat (share index)) = some (share index)) :
    (ofHosts hosts share).IsExact hosts.length := by
  constructor
  · rintro ⟨address, row⟩ member
    obtain ⟨index, host, -, -, rfl, rfl⟩ := mem_entries_ofHosts_iff.mp member
    exact length_unitRow _ _ _ _
  · rintro ⟨address, row⟩ member other inRow
    obtain ⟨index, host, isHost, -, rfl, rfl⟩ := mem_entries_ofHosts_iff.mp member
    rcases List.mem_or_eq_of_mem_set inRow with isZero | rfl
    · rw [(List.mem_replicate.mp isZero).2]
      rfl
    · exact exact index (List.getElem?_eq_some_iff.mp isHost).1

theorem not_isFirstNamed_iff {index : Nat} :
    ¬ IsFirstNamed hosts index ↔ ∃ host, hosts[index]? = some host ∧
      ∃ earlier < index, ∃ other, hosts[earlier]? = some other ∧ other.address = host.address := by
  simp only [IsFirstNamed, Option.mem_def, not_forall, not_not, exists_prop]
  refine exists_congr fun host => and_congr_right fun _ => ?_
  rw [← List.map_take, List.mem_map]
  constructor
  · rintro ⟨other, member, same⟩
    obtain ⟨earlier, isOther⟩ := List.mem_iff_getElem?.mp member
    obtain ⟨before, isOther⟩ := Option.ite_none_right_eq_some.mp (List.getElem?_take ▸ isOther)
    exact ⟨earlier, before, other, isOther, same⟩
  · rintro ⟨earlier, before, other, isOther, same⟩
    refine ⟨other, List.mem_iff_getElem?.mpr ⟨earlier, ?_⟩, same⟩
    rw [List.getElem?_take_of_lt before, isOther]

theorem not_isLastNamed_iff {index : Nat} :
    ¬ IsLastNamed hosts index ↔ ∃ host, hosts[index]? = some host ∧
      ∃ later > index, ∃ other, hosts[later]? = some other ∧ other.address = host.address := by
  simp only [IsLastNamed, Option.mem_def, not_forall, not_not, exists_prop]
  refine exists_congr fun host => and_congr_right fun _ => ?_
  rw [← List.map_drop, List.mem_map]
  constructor
  · rintro ⟨other, member, same⟩
    obtain ⟨offset, isOther⟩ := List.mem_iff_getElem?.mp member
    rw [List.getElem?_drop] at isOther
    exact ⟨index + 1 + offset, by omega, other, isOther, same⟩
  · rintro ⟨later, behind, other, isOther, same⟩
    refine ⟨other, List.mem_iff_getElem?.mpr ⟨later - (index + 1), ?_⟩, same⟩
    rw [List.getElem?_drop, Nat.add_sub_of_le behind, isOther]

theorem isFirstNamed_of_nodup (distinct : (hosts.map (·.address)).Nodup) (index : Nat) :
    IsFirstNamed hosts index := by
  by_contra notFirst
  obtain ⟨host, isHost, earlier, before, other, isOther, same⟩ := not_isFirstNamed_iff.mp notFirst
  have inside := (List.getElem?_eq_some_iff.mp isHost).1
  refine List.nodup_iff_getElem?_ne_getElem?.mp distinct earlier index before (by simpa) ?_
  rw [List.getElem?_map, List.getElem?_map, isHost, isOther, Option.map_some, Option.map_some, same]

/-- Every host is the last of its address where no two share one. -/
theorem forall_isLastNamed_iff :
    (∀ index < hosts.length, IsLastNamed hosts index) ↔ (hosts.map (·.address)).Nodup := by
  rw [List.nodup_iff_getElem?_ne_getElem?, List.length_map]
  constructor
  · intro allLast first second before inside same
    rw [List.getElem?_map, List.getElem?_map, List.getElem?_eq_getElem inside,
      List.getElem?_eq_getElem (before.trans inside)] at same
    exact not_isLastNamed_iff.mpr ⟨_, List.getElem?_eq_getElem (before.trans inside), second, before,
      _, List.getElem?_eq_getElem inside, (Option.some.inj same).symm⟩
      (allLast first (before.trans inside))
  · intro distinct index _
    by_contra notLast
    obtain ⟨host, isHost, later, behind, other, isOther, same⟩ := not_isLastNamed_iff.mp notLast
    refine distinct index later behind (List.getElem?_eq_some_iff.mp isOther).1 ?_
    rw [List.getElem?_map, List.getElem?_map, isHost, isOther, Option.map_some, Option.map_some, same]

end Hosts

end Stats

namespace RingRouter

/-- A host has no hashes if it has the points of a host before it. -/
theorem hashCount_eq_zero {hosts : List Host} {method : HashMethod} {router : RingRouter}
    (built : build hosts method = .ok router) {earlier index : Nat} {host other : Host}
    (before : earlier < index) (isEarlier : hosts[earlier]? = some other)
    (isHost : hosts[index]? = some host) (sameLabel : label other.address = label host.address) :
    router.hashCount index = 0 := by
  rw [hashCount, countOf, Finset.card_eq_zero, Finset.filter_eq_empty_iff]
  intro hash _ owns
  have first := isFirstFrom_entryFrom built hash
  obtain ⟨owner, isOwner, number, inRange, pointEq⟩ := mem_placeAll_iff.mp first.mem
  change (router.entryFrom hash).owner = index at owns
  rw [owns, isHost, Option.some.injEq] at isOwner
  subst isOwner
  -- The entry of the earlier host at the same point comes before.
  have isEntry : ⟨(router.entryFrom hash).point, earlier⟩ ∈ placeAll method hosts := by
    refine mem_placeAll_iff.mpr ⟨other, isEarlier, number, inRange, ?_⟩
    rw [pointEq, placement, placement, sameLabel]
  rcases first.standsBefore _ isEntry with ⟨reached, passed⟩ | ⟨-, precedes⟩
  · exact Nat.not_lt_of_le reached passed
  · have order := (RingEntry.precedes_iff _ _).mp precedes
    dsimp only at order
    omega

theorem stats_eq_ofHosts (router : RingRouter) :
    router.stats = Stats.ofHosts router.hosts fun index => mkRat (router.arcs.getD index 0) ringSize :=
  rfl

theorem mul_mkRat_ringSize (part : Nat) : 2 ^ 32 * mkRat part ringSize = part := by
  have size : ((ringSize : Nat) : Rat) = 2 ^ 32 := by norm_num [ringSize]
  rw [Rat.mkRat_eq_div, size]
  field_simp
  rfl

/-- The hashes of a host for which its column accounts: all of them, if no other host has its
address. -/
def reportedHashes (router : RingRouter) (index : Nat) : Nat :=
  if Stats.IsFirstNamed router.hosts index ∧ Stats.IsLastNamed router.hosts index then
    router.hashCount index
  else 0

section Built

variable {hosts : List Host} {method : HashMethod} {router : RingRouter}

theorem isExact_stats (built : build hosts method = .ok router) :
    router.stats.IsExact router.hosts.length := by
  rw [stats_eq_ofHosts]
  apply Stats.isExact_ofHosts
  intro index inside
  rw [getD_arcs built inside]
  exact Double.value?_shareToFloat_mkRat (router.hashCount_le index)

theorem columnSum_stats (built : build hosts method = .ok router) {index : Nat}
    (inside : index < router.hosts.length) :
    router.stats.columnSum index = mkRat (router.reportedHashes index) ringSize := by
  rw [stats_eq_ofHosts, Stats.columnSum_ofHosts (List.getElem?_eq_getElem inside),
    getD_arcs built inside]
  by_cases isLast : Stats.IsLastNamed router.hosts index
  · by_cases isFirst : Stats.IsFirstNamed router.hosts index
    · rw [if_pos isLast, reportedHashes, if_pos ⟨isFirst, isLast⟩]
    · obtain ⟨host, isHost, earlier, before, other, isOther, same⟩ :=
        Stats.not_isFirstNamed_iff.mp isFirst
      obtain ⟨-, hostsEq, -, -⟩ := build_eq_ok built
      rw [hostsEq] at isHost isOther
      rw [if_pos isLast, reportedHashes, if_neg fun only => isFirst only.1,
        hashCount_eq_zero built before isOther isHost (congrArg label same)]
  · rw [if_neg isLast, reportedHashes, if_neg fun only => isLast only.2]
    exact (Rat.zero_mkRat _).symm

theorem mul_total_stats (built : build hosts method = .ok router) :
    2 ^ 32 * router.stats.total =
      ((∑ index ∈ Finset.range router.hosts.length, router.reportedHashes index : Nat) : Rat) := by
  rw [← Stats.sum_columnSum (isExact_stats built), Finset.mul_sum, Nat.cast_sum]
  apply Finset.sum_congr rfl
  intro index member
  rw [columnSum_stats built (Finset.mem_range.mp member), mul_mkRat_ringSize]

end Built

end RingRouter

namespace ModuloRouter

theorem stats_eq_ofHosts (router : ModuloRouter) :
    router.stats = Stats.ofHosts router.hosts fun _ => 1 :=
  rfl

theorem isExact_stats (router : ModuloRouter) : router.stats.IsExact router.hosts.length := by
  rw [stats_eq_ofHosts]
  apply Stats.isExact_ofHosts
  intro _ _
  exact Double.value?_shareToFloat (by decide) (by decide) (Nat.pow_zero 2).symm (Nat.zero_le 52)

theorem columnSum?_stats (router : ModuloRouter) {index : Nat}
    (inside : index < router.hosts.length) :
    (Scheduler.modulo router).stats.columnSum? index =
      some (if Stats.IsLastNamed router.hosts index then 1 else 0) := by
  rw [Scheduler.stats, Stats.columnSum?_mapShares router.isExact_stats inside, stats_eq_ofHosts,
    Stats.columnSum_ofHosts (List.getElem?_eq_getElem inside)]

theorem hosts_of_build {hosts : List Host} {method : HashMethod} {router : ModuloRouter}
    (built : build hosts method = .ok router) : router.hosts = hosts := by
  unfold build at built
  split at built <;> cases built
  rfl

end ModuloRouter

/-- By remainder, a column sums to one exactly for the last host of an address.  On the ring, a
column accounts for the hashes of a host that shares its address with no other; those of the
others are missing from the total. -/
theorem Scheduler.columns_account_for_addresses (hosts : List Host) (method : HashMethod) :
    (∀ router, ModuloRouter.build hosts method = .ok router →
      router.hosts = hosts ∧
      (∀ index < hosts.length, (Scheduler.modulo router).stats.columnSum? index =
        some (if Stats.IsLastNamed hosts index then 1 else 0)) ∧
      ((∀ index < hosts.length, (Scheduler.modulo router).stats.columnSum? index = some 1) ↔
        (hosts.map (·.address)).Nodup)) ∧
    ∀ router, RingRouter.build hosts method = .ok router →
      router.hosts = hosts ∧
      (∀ index < hosts.length, ∃ sum,
        (Scheduler.consistent router).stats.columnSum? index = some sum ∧
        2 ^ 32 * sum = router.reportedHashes index) ∧
      (∃ total, (Scheduler.consistent router).stats.total? = some total ∧
        2 ^ 32 * total = (∑ index ∈ Finset.range hosts.length, router.reportedHashes index : Nat)) ∧
      ((hosts.map (·.address)).Nodup →
        (∀ index < hosts.length, router.reportedHashes index = router.hashCount index) ∧
        (Scheduler.consistent router).stats.total? = some 1) := by
  constructor
  · intro router built
    obtain rfl := ModuloRouter.hosts_of_build built
    refine ⟨rfl, fun index inside => router.columnSum?_stats inside, ?_⟩
    rw [← Stats.forall_isLastNamed_iff]
    refine forall₂_congr fun index inside => ?_
    rw [router.columnSum?_stats inside]
    by_cases isLast : Stats.IsLastNamed router.hosts index <;> simp [isLast]
  · intro router built
    obtain ⟨-, rfl, -, -⟩ := RingRouter.build_eq_ok built
    have exact := RingRouter.isExact_stats built
    have totalEq : (Scheduler.consistent router).stats.total? = some router.stats.total :=
      Stats.total?_mapShares exact
    refine ⟨rfl, ?_, ⟨_, totalEq, RingRouter.mul_total_stats built⟩, ?_⟩
    · intro index inside
      refine ⟨_, Stats.columnSum?_mapShares exact inside, ?_⟩
      rw [RingRouter.columnSum_stats built inside, RingRouter.mul_mkRat_ringSize]
    · intro distinct
      have allReported : ∀ index < router.hosts.length,
          router.reportedHashes index = router.hashCount index := fun index inside =>
        if_pos ⟨Stats.isFirstNamed_of_nodup distinct index,
          Stats.forall_isLastNamed_iff.mpr distinct index inside⟩
      refine ⟨allReported, ?_⟩
      have counted := RingRouter.mul_total_stats built
      rw [Finset.sum_congr rfl fun index member => allReported index (Finset.mem_range.mp member),
        RingRouter.sum_hashCount built] at counted
      have size : ((ringSize : Nat) : Rat) = 2 ^ 32 := by norm_num [ringSize]
      rw [size, mul_eq_left₀ (by norm_num)] at counted
      rw [totalEq, counted]

theorem Scheduler.columns_account_for_addresses_of_two :
    (∃ router, ModuloRouter.build [⟨"a:1"⟩, ⟨"b:1"⟩] .fnv1a = .ok router ∧
      (Scheduler.modulo router).stats.columnSum? 1 = some 1) ∧
    ∃ router, RingRouter.build [⟨"a:1"⟩, ⟨"b:1"⟩] .fnv1a = .ok router ∧
      (∃ sum, (Scheduler.consistent router).stats.columnSum? 1 = some sum ∧
        2 ^ 32 * sum = router.hashCount 1) ∧
      (Scheduler.consistent router).stats.total? = some 1 := by
  obtain ⟨byRemainder, onRing⟩ :=
    Scheduler.columns_account_for_addresses [⟨"a:1"⟩, ⟨"b:1"⟩] .fnv1a
  refine ⟨⟨_, rfl, (byRemainder _ rfl).2.2.mpr (by decide) 1 (by decide)⟩, ?_⟩
  obtain ⟨router, built⟩ := RingRouter.exists_build_eq_ok
    (show [(⟨"a:1"⟩ : Host), ⟨"b:1"⟩] ≠ [] by decide) .fnv1a
  obtain ⟨-, columns, -, distinct⟩ := onRing router built
  obtain ⟨allReported, totalEq⟩ := distinct (by decide)
  refine ⟨router, built, ?_, totalEq⟩
  rw [← allReported 1 (by decide)]
  exact columns 1 (by decide)

/-- Of two hosts with one address, the first has all the hashes and the last has the row. -/
theorem Scheduler.columns_lose_first_of_address :
    (∃ router, ModuloRouter.build [⟨"a:1"⟩, ⟨"a:1"⟩] .fnv1a = .ok router ∧
      (Scheduler.modulo router).stats.columnSum? 0 = some 0) ∧
    ∃ router, RingRouter.build [⟨"a:1"⟩, ⟨"a:1"⟩] .fnv1a = .ok router ∧
      router.hashCount 0 = 2 ^ 32 ∧
      (Scheduler.consistent router).stats.columnSum? 0 = some 0 ∧
      (Scheduler.consistent router).stats.total? = some 0 := by
  constructor
  · refine ⟨_, rfl, ?_⟩
    rw [ModuloRouter.columnSum?_stats _ (by decide)]
    decide
  · obtain ⟨router, built⟩ := RingRouter.exists_build_eq_ok
      (show [(⟨"a:1"⟩ : Host), ⟨"a:1"⟩] ≠ [] by decide) .fnv1a
    obtain ⟨-, hostsEq, -, -⟩ := RingRouter.build_eq_ok built
    have two : router.hosts.length = 2 := by rw [hostsEq]; rfl
    have exact := RingRouter.isExact_stats built
    have lastHasNone : router.hashCount 1 = 0 :=
      RingRouter.hashCount_eq_zero built Nat.zero_lt_one rfl rfl rfl
    have allHashes := RingRouter.sum_hashCount built
    have notReported : router.reportedHashes 0 = 0 := by
      rw [RingRouter.reportedHashes, hostsEq]
      exact if_neg (by decide)
    have noneReported : router.reportedHashes 1 = 0 := by
      rw [RingRouter.reportedHashes, hostsEq]
      exact if_neg (by decide)
    have nothing := RingRouter.mul_total_stats built
    rw [two, Finset.sum_range_succ, Finset.sum_range_one] at allHashes nothing
    rw [notReported, noneReported] at nothing
    refine ⟨router, built, ?_, ?_, ?_⟩
    · rw [lastHasNone, Nat.add_zero] at allHashes
      exact allHashes
    · refine (Stats.columnSum?_mapShares exact (by omega)).trans ?_
      rw [RingRouter.columnSum_stats built (by omega), notReported]
      rfl
    · refine (Stats.total?_mapShares exact).trans ?_
      simpa using nothing

end CacheRouting
