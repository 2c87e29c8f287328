import CacheRouting.Proofs.Routing.Assignment
import CacheRouting.Proofs.Routing.Rotation
import CacheRouting.Proofs.Routing.Stats

/-!
# What an assignment means

An assignment is accepted when its hosts are distinct, its buckets are within the
limit and none of them is left out.  Then each bucket has the hosts that name it, in
their order and once each; the numbers reported of a host say which buckets it
names; and a key gets all hosts of its bucket, turned by its hash.
-/

namespace CacheRouting

namespace ManualRouter

/-- Hosts whose buckets are counted have addresses that are new. -/
theorem nodup_of_countBuckets {seen : List String} {count total : Nat}
    {assignment : List (Host × List Nat)} (counted : countBuckets seen count assignment = .ok total) :
    (assignment.map fun entry => entry.1.address).Nodup ∧
      ∀ entry ∈ assignment, entry.1.address ∉ seen := by
  induction assignment generalizing seen count with
  | nil => simp
  | cons entry rest ih =>
      obtain ⟨host, served⟩ := entry
      rw [countBuckets] at counted
      split at counted
      · cases counted
      · next isNew =>
        have restCounted : ∃ next, countBuckets (host.address :: seen) next rest = .ok total := by
          split at counted
          · exact ⟨_, counted⟩
          · split at counted
            · cases counted
            · exact ⟨_, counted⟩
        obtain ⟨next, restCounted⟩ := restCounted
        obtain ⟨distinct, fresh⟩ := ih restCounted
        simp only [List.mem_cons, not_or] at fresh
        constructor
        · rw [List.map_cons, List.nodup_cons]
          refine ⟨fun repeated => ?_, distinct⟩
          obtain ⟨other, member, same⟩ := List.mem_map.mp repeated
          exact (fresh other member).1 same
        · exact List.forall_mem_cons.mpr ⟨isNew, fun other member => (fresh other member).2⟩

/-- What an assignment must be like for a table to be built from it. -/
structure IsAcceptable (assignment : List (Host × List Nat)) : Prop where
  notEmpty : assignment ≠ []
  distinct : (assignment.map fun entry => entry.1.address).Nodup
  inLimit : ∀ entry ∈ assignment, ∀ bucket ∈ entry.2, bucket < 65536
  allServed : ∀ bucket < referencedCount assignment, ∃ entry ∈ assignment, bucket ∈ entry.2

theorem isAcceptable_of_build {assignment : List (Host × List Nat)} {method : HashMethod}
    {router : ManualRouter} (built : build assignment method = .ok router) :
    IsAcceptable assignment := by
  obtain ⟨count, counted, noneEmpty, -⟩ := exists_count_of_build built
  obtain ⟨distinct, -⟩ := nodup_of_countBuckets counted
  obtain ⟨inLimit, rfl⟩ := (countBuckets_eq_ok_iff distinct).mp counted
  refine ⟨?_, distinct, inLimit, not_isFirstUnserved_iff.mp fun bucket isFirst => ?_⟩
  · rintro rfl
    cases built
  · rw [← findIdx?_enterAll_eq_some_iff, noneEmpty] at isFirst
    cases isFirst

theorem IsAcceptable.exists_build {assignment : List (Host × List Nat)}
    (acceptable : IsAcceptable assignment) (method : HashMethod) :
    ∃ router, build assignment method = .ok router := by
  cases built : build assignment method with
  | ok router => exact ⟨router, rfl⟩
  | error error =>
      rcases (build_eq_error_iff acceptable.notEmpty acceptable.distinct).mp built with
        ⟨largest, leaves, -⟩ | ⟨-, bucket, isFirst, -⟩
      · exact absurd acceptable.inLimit leaves.not_staysInLimit
      · exact absurd isFirst (not_isFirstUnserved_iff.mpr acceptable.allServed bucket)

section Built

variable {assignment : List (Host × List Nat)} {method : HashMethod} {router : ManualRouter}

theorem bucketCount_eq (built : build assignment method = .ok router) :
    router.bucketCount = referencedCount assignment := by
  obtain ⟨count, counted, -, rfl⟩ := exists_count_of_build built
  rw [bucketCount, size_enterAll, eq_referencedCount_of_countBuckets counted]

theorem toList_members (built : build assignment method = .ok router) :
    router.members.toList = (List.range router.bucketCount).map (servers assignment) := by
  obtain ⟨-, -, -, -, members⟩ := build_eq_ok built
  apply List.ext_getElem?
  intro bucket
  rw [Array.getElem?_toList, List.getElem?_map]
  rcases Nat.lt_or_ge bucket router.bucketCount with known | unknown
  · rw [(members bucket known).1, List.getElem?_range known, Option.map_some]
  · rw [Array.getElem?_eq_none unknown, List.getElem?_eq_none (by simpa using unknown),
      Option.map_none]

theorem mem_servers_iff_of_getElem? {index bucket : Nat} {host : Host} {served : List Nat}
    (isEntry : assignment[index]? = some (host, served)) :
    index ∈ servers assignment bucket ↔ bucket ∈ served := by
  rw [mem_servers_iff]
  constructor
  · rintro ⟨other, otherServed, found, isServed⟩
    cases isEntry.symm.trans found
    exact isServed
  · exact fun isServed => ⟨host, served, isEntry, isServed⟩

theorem find?_stats (built : build assignment method = .ok router) {index : Nat} {host : Host}
    {served : List Nat} (isEntry : assignment[index]? = some (host, served)) :
    (Scheduler.manual router).stats.find? host.address =
      some ((List.range router.bucketCount).map fun bucket => if bucket ∈ served then 1 else 0) := by
  obtain ⟨hostsEq, -⟩ := build_eq_ok built
  have isHost : router.hosts[index]? = some host := by
    rw [hostsEq, List.getElem?_map, isEntry]
    rfl
  have distinct : (router.hosts.map (·.address)).Nodup := by
    rw [hostsEq, List.map_map]
    exact (isAcceptable_of_build built).distinct
  have hasRow := Stats.find?_ofList_rows
    (fun _ index => router.members.toList.map fun members =>
      if members.contains index then (1 : Rat) else 0) distinct isHost
  rw [Scheduler.stats, Stats.find?_mapShares, stats, hasRow, Option.map_some, toList_members built,
    List.map_map, List.map_map]
  congr 2
  funext bucket
  simp only [Function.comp_apply, List.contains_iff_mem, mem_servers_iff_of_getElem? isEntry]
  split <;> rfl

theorem find?_stats_of_absent (built : build assignment method = .ok router) {address : String}
    (absent : ∀ entry ∈ assignment, entry.1.address ≠ address) :
    (Scheduler.manual router).stats.find? address = none := by
  obtain ⟨hostsEq, -⟩ := build_eq_ok built
  have noHost : ∀ host ∈ router.hosts, host.address ≠ address := by
    rw [hostsEq]
    intro host isHost
    obtain ⟨entry, member, rfl⟩ := List.mem_map.mp isHost
    exact absent entry member
  have noRow := Stats.find?_ofList_rows_of_absent
    (fun _ index => router.members.toList.map fun members =>
      if members.contains index then (1 : Rat) else 0) noHost
  rw [Scheduler.stats, Stats.find?_mapShares, stats, noRow, Option.map_none]

theorem length_hostsFor (built : build assignment method = .ok router) (key : String) :
    ((Scheduler.manual router).hostsFor key).length =
      (servers assignment (router.bucketOf key)).length := by
  have lengths := congrArg List.length (answers built key).hostsFor_eq
  rw [List.length_map, List.length_map] at lengths
  exact lengths.trans (route_perm built key).length_eq

/-- The host of a key at a place is the member that its hash turns there. -/
theorem getElem?_hostsFor (built : build assignment method = .ok router) {key : String}
    {members : List Nat} (has : router.members[router.bucketOf key]? = some members) {place : Nat}
    (inside : place < members.length) :
    ∃ index host,
      members[(place + members.length - router.method.hashText key % members.length) %
        members.length]? = some index ∧
      router.hosts[index]? = some host ∧
      ((Scheduler.manual router).hostsFor key)[place]? = some host := by
  have turned : (place + members.length - router.method.hashText key % members.length) %
      members.length < members.length := Nat.mod_lt _ (Nat.zero_lt_of_lt inside)
  have comesFrom := List.getElem?_eq_getElem turned
  have isRouted : (router.route key)[place]? = some members[(place + members.length -
      router.method.hashText key % members.length) % members.length] := by
    rw [route_eq_rotateRight has, getElem?_rotateRight members _ inside, Nat.mod_mod, comesFrom]
  have atPlace := congrArg (·[place]?) (answers built key).hostsFor_eq
  simp only [List.getElem?_map, Scheduler.route, isRouted, Option.map_some] at atPlace
  obtain ⟨host, isAnswered, isHost⟩ := Option.map_eq_some_iff.mp atPlace
  exact ⟨_, host, comesFrom, isHost.symm, isAnswered⟩

end Built

/-- What a table must be to mean what an operator assigns. -/
structure Means (router : ManualRouter) (assignment : List (Host × List Nat))
    (method : HashMethod) : Prop where
  hosts_eq : router.hosts = assignment.map (·.1)
  bucketCount_eq : router.bucketCount = referencedCount assignment
  /-- Each bucket has the hosts that name it, in ascending order. -/
  exists_members : ∀ bucket < router.bucketCount, ∃ members,
    router.members[bucket]? = some members ∧ members.Pairwise (· < ·) ∧
      ∀ index, index ∈ members ↔
        ∃ host served, assignment[index]? = some (host, served) ∧ bucket ∈ served
  /-- The row of a host has a one for each bucket it names and a zero for each other. -/
  find?_stats : ∀ (index : Nat) (host : Host) (served : List Nat),
    assignment[index]? = some (host, served) →
      (Scheduler.manual router).stats.find? host.address =
        some ((List.range router.bucketCount).map fun bucket => if bucket ∈ served then 1 else 0)
  find?_stats_of_absent : ∀ address, (∀ entry ∈ assignment, entry.1.address ≠ address) →
    (Scheduler.manual router).stats.find? address = none
  /-- A key gets the members of its bucket, turned by its hash. -/
  hostsFor : ∀ key, ∃ members, router.members[router.bucketOf key]? = some members ∧
    ((Scheduler.manual router).hostsFor key).length = members.length ∧ members ≠ [] ∧
      ∀ place < members.length, ∃ index host,
        members[(place + members.length - method.hashText key % members.length) %
          members.length]? = some index ∧
        router.hosts[index]? = some host ∧
        ((Scheduler.manual router).hostsFor key)[place]? = some host

theorem means_of_build {assignment : List (Host × List Nat)} {method : HashMethod}
    {router : ManualRouter} (built : build assignment method = .ok router) :
    router.Means assignment method := by
  obtain ⟨hostsEq, rfl, -, -, members⟩ := build_eq_ok built
  refine ⟨hostsEq, bucketCount_eq built, ?_, fun index host served => find?_stats built,
    fun address => find?_stats_of_absent built, ?_⟩
  · intro bucket known
    exact ⟨_, (members bucket known).1, serversFrom_pairwise .., fun index => mem_servers_iff⟩
  · intro key
    obtain ⟨has, someServe⟩ := members_bucketOf built key
    exact ⟨_, has, length_hostsFor built key, someServe, fun place => getElem?_hostsFor built has⟩

/-- An assignment is accepted if it is to some hosts, all distinct, and neither goes past the
limit nor leaves out a bucket, and for no other assignment there is a table.  The table means
what is assigned: its buckets have the hosts that name them, its numbers say which these are,
and each key gets all hosts of its bucket, turned by its hash. -/
theorem tables_mean_what_is_assigned (assignment : List (Host × List Nat)) (method : HashMethod) :
    ((∃ router, build assignment method = .ok router) ↔ IsAcceptable assignment) ∧
      ∀ router, build assignment method = .ok router → router.Means assignment method :=
  ⟨⟨fun ⟨_, built⟩ => isAcceptable_of_build built, fun acceptable => acceptable.exists_build method⟩,
    fun _ => means_of_build⟩

/-- Buckets may be named in any order and more than once. -/
theorem tables_mean_what_is_assigned_with_repeats :
    ∃ router, build [(⟨"a:1"⟩, [2, 0, 2]), (⟨"b:1"⟩, [1]), (⟨"c:1"⟩, [0, 1, 0])] .crc32 = .ok router ∧
      router.Means [(⟨"a:1"⟩, [2, 0, 2]), (⟨"b:1"⟩, [1]), (⟨"c:1"⟩, [0, 1, 0])] .crc32 ∧
      router.members = #[[0, 2], [1, 2], [0]] ∧
      (Scheduler.manual router).stats.find? "c:1" = some [1, 1, 0] := by
  have built : build [(⟨"a:1"⟩, [2, 0, 2]), (⟨"b:1"⟩, [1]), (⟨"c:1"⟩, [0, 1, 0])] .crc32 =
      .ok ⟨[⟨"a:1"⟩, ⟨"b:1"⟩, ⟨"c:1"⟩], #[[0, 2], [1, 2], [0]], .crc32⟩ := by cbv
  have means := (tables_mean_what_is_assigned _ _).2 _ built
  exact ⟨_, built, means, rfl, means.find?_stats 2 _ _ rfl⟩

end ManualRouter

end CacheRouting
