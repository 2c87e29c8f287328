import CacheRouting.Proofs.Dictionary
import CacheRouting.Proofs.Routing.Scheduler
import CacheRouting.Routing.Query

/-!
# Keys in groups

Keys that are divided keep their number and their order: a group has the keys of
its index, as often as they were given.  The index of a key is what decides its
route as well, so the keys of a group can go out together.
-/

namespace CacheRouting

section Grouping

variable {Item : Type} {groupOf : Item → Nat} {items : List Item}

/-- Each item goes to the end of its group, whatever the groups hold already. -/
theorem foldlM_push_eq_some (groups : Array (Array Item))
    (inRange : ∀ item ∈ items, groupOf item < groups.size) :
    ∃ result : Array (Array Item),
      items.foldlM
        (fun groups item =>
          if groupOf item < groups.size then
            some (groups.modify (groupOf item) (·.push item))
          else none)
        groups = some result ∧
      result.size = groups.size ∧
      ∀ index, result[index]? =
        groups[index]?.map fun group : Array Item =>
          group ++ items.filter fun item => groupOf item = index := by
  induction items generalizing groups with
  | nil => exact ⟨groups, rfl, rfl, fun index => by simp⟩
  | cons item rest ih =>
      obtain ⟨itemInRange, restInRange⟩ := List.forall_mem_cons.mp inRange
      obtain ⟨result, folded, size, slots⟩ :=
        ih (groups.modify (groupOf item) (·.push item)) (by simpa using restInRange)
      refine ⟨result, ?_, by simpa using size, ?_⟩
      · rw [List.foldlM_cons, if_pos itemInRange]
        exact folded
      · intro index
        rw [slots, Array.getElem?_modify, List.filter_cons]
        by_cases same : groupOf item = index
        · simp [same, Function.comp_def]
        · simp [same]

def fibers (groupOf : Item → Nat) (count : Nat) (items : List Item) : List (List Item) :=
  (List.range count).map fun index => items.filter fun item => groupOf item = index

theorem divideInto?_eq_some {count : Nat} (inRange : ∀ item ∈ items, groupOf item < count) :
    divideInto? count groupOf items =
      some ((fibers groupOf count items).map List.toArray).toArray := by
  obtain ⟨groups, divided, size, slots⟩ :=
    foldlM_push_eq_some (Array.replicate count #[]) (by simpa using inRange)
  rw [divideInto?, divided, Option.some.injEq]
  apply Array.ext_getElem?
  intro index
  rw [slots]
  by_cases inside : index < count
  · simp [fibers, inside]
  · simp [fibers, inside]

theorem flatten_fibers_perm_filter (count : Nat) (items : List Item) :
    (fibers groupOf count items).flatten.Perm (items.filter fun item => groupOf item < count) := by
  induction count with
  | zero => simp [fibers]
  | succ count ih =>
      have earlier : ((items.filter fun item => groupOf item < count + 1).filter
          fun item => groupOf item < count) = items.filter fun item => groupOf item < count := by
        rw [List.filter_filter]
        refine List.filter_congr fun item _ => ?_
        rw [← Bool.decide_and, decide_eq_decide]
        omega
      have last : ((items.filter fun item => groupOf item < count + 1).filter
          fun item => !decide (groupOf item < count)) =
            items.filter fun item => groupOf item = count := by
        rw [List.filter_filter]
        refine List.filter_congr fun item _ => ?_
        rw [← decide_not, ← Bool.decide_and, decide_eq_decide]
        omega
      have parts := List.filter_append_perm (fun item => decide (groupOf item < count))
        (items.filter fun item => groupOf item < count + 1)
      rw [earlier, last] at parts
      have grown : (fibers groupOf (count + 1) items).flatten =
          (fibers groupOf count items).flatten ++ items.filter fun item => groupOf item = count := by
        simp [fibers, List.range_succ]
      rw [grown]
      exact (ih.append_right _).trans parts

/-- Where every item has one of the indices, no occurrence of an item is lost or doubled. -/
theorem flatten_fibers_perm {count : Nat} (inRange : ∀ item ∈ items, groupOf item < count) :
    (fibers groupOf count items).flatten.Perm items := by
  have all : (items.filter fun item => groupOf item < count) = items :=
    List.filter_eq_self.mpr (by simpa using inRange)
  have perm : (fibers groupOf count items).flatten.Perm _ := flatten_fibers_perm_filter count items
  rwa [all] at perm

theorem getElem?_fibers {count index : Nat} (inside : index < count) (items : List Item) :
    (fibers groupOf count items)[index]? =
      some (items.filter fun item => groupOf item = index) := by
  simp [fibers, inside]

theorem groupOf_eq_of_mem {count index : Nat} {group : List Item} {item : Item}
    (isGroup : (fibers groupOf count items)[index]? = some group) (member : item ∈ group) :
    index < count ∧ groupOf item = index := by
  have inside : index < count := by
    simpa [fibers] using (List.getElem?_eq_some_iff.mp isGroup).1
  rw [getElem?_fibers inside, Option.some.injEq] at isGroup
  subst isGroup
  exact ⟨inside, of_decide_eq_true (List.mem_filter.mp member).2⟩

end Grouping

namespace Scheduler

/-- Keys are divided by their index: there is a group for each index below `count`, with
the keys of this index as often as they were given and in the order in which they were, and
no occurrence of a key is missing.  A question about groups is answered with these. -/
structure DividesBy (scheduler : Scheduler) (indexOf : String → Nat) (count : Nat)
    (keys : List String) (groups : List (List String)) : Prop where
  divide?_eq : scheduler.divide? keys = some (groups.map List.toArray).toArray
  query_eq : Query.divide? scheduler keys = some groups
  length_eq : groups.length = count
  getElem?_eq : ∀ index < count,
    groups[index]? = some (keys.filter fun key => indexOf key = index)
  flatten_perm : groups.flatten.Perm keys

/-- A question about routes is answered for exactly the given keys, with the addresses of
their hosts. -/
def RoutesKeys (scheduler : Scheduler) (keys : List String) : Prop :=
  ∀ key addresses, (key, addresses) ∈ (Query.route scheduler keys).entries ↔
    key ∈ keys ∧ addresses = (scheduler.hostsFor key).map (·.address)

/-- A key goes to the one host that has the index of its group. -/
def SendsGroupsToHosts (scheduler : Scheduler) (groups : List (List String)) : Prop :=
  ∀ (index : Nat) (group : List String), groups[index]? = some group → ∀ key ∈ group,
    ∃ host, scheduler.hosts[index]? = some host ∧ scheduler.hostsFor key = [host]

/-- Any two keys of a group go to hosts that are alike. -/
def SendsGroupsAlike (alike : List Host → List Host → Prop) (scheduler : Scheduler)
    (groups : List (List String)) : Prop :=
  ∀ group ∈ groups, ∀ first ∈ group, ∀ second ∈ group,
    alike (scheduler.hostsFor first) (scheduler.hostsFor second)

variable {scheduler : Scheduler} {indexOf : String → Nat} {count : Nat}

theorem dividesBy_fibers {keys : List String}
    (divides : scheduler.divide? keys = divideInto? count indexOf keys)
    (inRange : ∀ key, indexOf key < count) :
    scheduler.DividesBy indexOf count keys (fibers indexOf count keys) := by
  have divided : scheduler.divide? keys =
      some ((fibers indexOf count keys).map List.toArray).toArray := by
    rw [divides, divideInto?_eq_some fun key _ => inRange key]
  refine ⟨divided, ?_, ?_, ?_, ?_⟩
  · simp [Query.divide?, divided, Function.comp_def]
  · simp [fibers]
  · exact fun index inside => getElem?_fibers inside keys
  · exact flatten_fibers_perm fun key _ => inRange key

theorem routesKeys (scheduler : Scheduler) (keys : List String) : scheduler.RoutesKeys keys :=
  fun _ _ => Dictionary.mem_entries_ofList_map

/-- Where the hosts of a key depend on its index alone, up to a relation, the keys of a group
are answered alike. -/
theorem sendsGroupsAlike_fibers {alike : List Host → List Host → Prop} (keys : List String)
    (sameIndex : ∀ first second, indexOf first = indexOf second →
      alike (scheduler.hostsFor first) (scheduler.hostsFor second)) :
    scheduler.SendsGroupsAlike alike (fibers indexOf count keys) := by
  intro group isGroup first firstMember second secondMember
  obtain ⟨index, found⟩ := List.mem_iff_getElem?.mp isGroup
  obtain ⟨-, firstIndex⟩ := groupOf_eq_of_mem found firstMember
  obtain ⟨-, secondIndex⟩ := groupOf_eq_of_mem found secondMember
  exact sameIndex first second (firstIndex.trans secondIndex.symm)

/-- Where a key is routed to its index, the keys of a group go to the host of the group. -/
theorem sendsGroupsToHosts_fibers (keys : List String)
    (isRoute : ∀ key, scheduler.route key = [indexOf key])
    (inRange : count = scheduler.hosts.length) :
    scheduler.SendsGroupsToHosts (fibers indexOf count keys) := by
  intro index group isGroup key member
  obtain ⟨inside, sameIndex⟩ := groupOf_eq_of_mem isGroup member
  have found := List.getElem?_eq_getElem (inRange ▸ inside)
  refine ⟨_, found, ?_⟩
  simp [hostsFor, isRoute, sameIndex, found]

end Scheduler

theorem ManualRouter.hostsFor_perm_of_bucketOf_eq {assignment : List (Host × List Nat)}
    {method : HashMethod} {router : ManualRouter} (built : build assignment method = .ok router)
    {first second : String} (sameBucket : router.bucketOf first = router.bucketOf second) :
    ((Scheduler.manual router).hostsFor first).Perm ((Scheduler.manual router).hostsFor second) := by
  refine List.Perm.filterMap _ ?_
  have firstPerm := route_perm built first
  rw [sameBucket] at firstPerm
  exact firstPerm.trans (route_perm built second).symm

theorem AutoRouter.hostsFor_eq_of_bucketOf_eq {router : AutoRouter Float} {first second : String}
    (sameBucket : router.bucketOf first = router.bucketOf second) :
    (Scheduler.auto router).hostsFor first = (Scheduler.auto router).hostsFor second := by
  rw [Scheduler.hostsFor, Scheduler.hostsFor, Scheduler.route, route, route, sameBucket]

/-- Keys are divided without loss, in the order in which they are given, and as they are
routed.  By remainder or by the ring the group of a key is that of its host; by assignment
the keys of a group go to the same hosts, and by experience to the same hosts in the same
order. -/
theorem keys_are_divided_as_routed :
    (∀ hosts method router, ModuloRouter.build hosts method = .ok router → ∀ keys, ∃ groups,
      (Scheduler.modulo router).DividesBy router.hostIndex router.hosts.length keys groups ∧
        (Scheduler.modulo router).SendsGroupsToHosts groups ∧
        (Scheduler.modulo router).RoutesKeys keys) ∧
    (∀ hosts method router, RingRouter.build hosts method = .ok router → ∀ keys, ∃ groups,
      (Scheduler.consistent router).DividesBy router.hostIndex router.hosts.length keys groups ∧
        (Scheduler.consistent router).SendsGroupsToHosts groups ∧
        (Scheduler.consistent router).RoutesKeys keys) ∧
    (∀ assignment method router, ManualRouter.build assignment method = .ok router → ∀ keys,
      ∃ groups,
        (Scheduler.manual router).DividesBy router.bucketOf router.bucketCount keys groups ∧
          (Scheduler.manual router).SendsGroupsAlike List.Perm groups ∧
          (Scheduler.manual router).RoutesKeys keys) ∧
    ∀ hosts bucketCount method options hasRuntime router actions reached,
      AutoRouter.build hosts bucketCount method options hasRuntime = .ok router →
      router.run? actions = some reached → ∀ keys, ∃ groups,
        (Scheduler.auto reached).DividesBy reached.bucketOf bucketCount keys groups ∧
          (Scheduler.auto reached).SendsGroupsAlike Eq groups ∧
          (Scheduler.auto reached).RoutesKeys keys := by
  refine ⟨?_, ?_, ?_, ?_⟩
  · intro hosts method router built keys
    refine ⟨_, Scheduler.dividesBy_fibers rfl ?_, ?_, Scheduler.routesKeys _ keys⟩
    · exact fun key => Nat.mod_lt _ (ModuloRouter.hosts_length_pos built)
    · exact Scheduler.sendsGroupsToHosts_fibers keys (fun _ => rfl) rfl
  · intro hosts method router built keys
    refine ⟨_, Scheduler.dividesBy_fibers rfl ?_, ?_, Scheduler.routesKeys _ keys⟩
    · exact fun key => RingRouter.ownerOf_lt built _
    · exact Scheduler.sendsGroupsToHosts_fibers keys (fun _ => rfl) rfl
  · intro assignment method router built keys
    refine ⟨_, Scheduler.dividesBy_fibers rfl ?_, ?_, Scheduler.routesKeys _ keys⟩
    · exact fun key => (ManualRouter.bucketOf_isFound built key).lt
    · exact Scheduler.sendsGroupsAlike_fibers keys
        fun _ _ => ManualRouter.hostsFor_perm_of_bucketOf_eq built
  · intro hosts bucketCount method options hasRuntime router actions reached built ran keys
    obtain ⟨-, rfl⟩ := AutoRouter.eq_of_run? built ran
    refine ⟨_, Scheduler.dividesBy_fibers rfl ?_, ?_, Scheduler.routesKeys _ keys⟩
    · exact fun key => (AutoRouter.bucketOf_isFound built ran key).lt
    · exact Scheduler.sendsGroupsAlike_fibers keys
        fun _ _ => AutoRouter.hostsFor_eq_of_bucketOf_eq

/-- A key that is given twice stands in its group twice, and keys of one group may prefer
different hosts. -/
theorem keys_are_divided_as_routed_with_repeats :
    (∃ router groups,
      ManualRouter.build [(⟨"a:1"⟩, [1, 0]), (⟨"b:1"⟩, [1])] .crc32 = .ok router ∧
        (Scheduler.manual router).DividesBy router.bucketOf 2 ["x", "@1", "u", "x"] groups ∧
        groups[1]? = some ["x", "u", "x"] ∧
        (Scheduler.manual router).SendsGroupsAlike List.Perm groups ∧
        router.route "x" = [1, 0] ∧ router.route "u" = [0, 1]) ∧
    ∃ (reached : AutoRouter Float) (groups : List (List String)),
      AutoRouter.run? ⟨[⟨"a:1"⟩, ⟨"b:1"⟩], 2, .crc32, Dispatch.initial 2 2 1⟩
        [.report 0 "b:1" "u" 1, .work, .work, .work] = some reached ∧
      reached.route "x" = [1, 0] ∧ groups[1]? = some ["x", "u", "x"] ∧
      (Scheduler.auto reached).SendsGroupsAlike Eq groups := by
  constructor
  · have built : ManualRouter.build [(⟨"a:1"⟩, [1, 0]), (⟨"b:1"⟩, [1])] .crc32 =
        .ok ⟨[⟨"a:1"⟩, ⟨"b:1"⟩], #[[0], [0, 1]], .crc32⟩ := by cbv
    obtain ⟨groups, divides, alike, -⟩ :=
      keys_are_divided_as_routed.2.2.1 _ _ _ built ["x", "@1", "u", "x"]
    refine ⟨_, groups, built, divides, ?_, alike, by decide, by decide⟩
    rw [divides.getElem?_eq 1 (by decide)]
    decide
  · have built : AutoRouter.build [⟨"a:1"⟩, ⟨"b:1"⟩] 2 .crc32 ⟨0, 1, false⟩ true =
        .ok (⟨[⟨"a:1"⟩, ⟨"b:1"⟩], 2, .crc32, Dispatch.initial 2 2 1⟩ : AutoRouter Float) := rfl
    obtain ⟨reached, ran, facts⟩ : ∃ reached : AutoRouter Float,
        AutoRouter.run? ⟨[⟨"a:1"⟩, ⟨"b:1"⟩], 2, .crc32, Dispatch.initial 2 2 1⟩
          [.report 0 "b:1" "u" 1, .work, .work, .work] = some reached ∧
        reached.route "x" = [1, 0] ∧
        (["x", "@1", "u", "x"].filter fun key => reached.bucketOf key = 1) = ["x", "u", "x"] :=
      ⟨_, rfl, by decide, by decide⟩
    obtain ⟨groups, divides, alike, -⟩ :=
      keys_are_divided_as_routed.2.2.2 _ _ _ _ _ _ _ _ built ran ["x", "@1", "u", "x"]
    refine ⟨reached, groups, ran, facts.1, ?_, alike⟩
    rw [divides.getElem?_eq 1 (by decide), facts.2]

end CacheRouting
