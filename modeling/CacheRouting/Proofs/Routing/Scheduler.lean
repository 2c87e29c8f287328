import CacheRouting.Proofs.Auto.Router
import CacheRouting.Proofs.Config.Validation
import CacheRouting.Proofs.Routing.Bucket
import CacheRouting.Proofs.Routing.Manual
import CacheRouting.Proofs.Routing.Ring
import CacheRouting.Routing.Scheduler

/-!
# Every key has hosts

A scheduler that has been built answers every key with some of its hosts, each
at most once, and nothing that is looked up on the way is missing.  Routing by
remainder and by the ring gives one host, routing by assignment those that serve
the bucket of the key, and routing by experience all hosts.
-/

namespace CacheRouting

namespace Bucket

/-- What it takes to find the bucket of a key: the shift of its hash is not negative, the
digits that spell the bucket stand in the key, and the bucket is one of those there are. -/
structure IsFound (method : HashMethod) (count : Nat) (key : String) : Prop where
  width_le : width count ≤ 16
  cases : (∃ digits rest, Text.utf8 key = 0x40 :: (digits ++ rest) ∧
      digits.length = digitCount count ∧ ofKey method count key = spelled digits) ∨
    ofKey method count key = hashed method count (Text.utf8 key)
  lt_two_pow_width : ofKey method count key < 2 ^ width count
  two_pow_width_le : 2 ^ width count ≤ count

theorem isFound {count : Nat} (method : HashMethod) (positive : 0 < count)
    (accepted : count ≤ Config.maxBucketCount) (key : String) : IsFound method count key where
  width_le := Bucket.width_le accepted
  cases := ofBytes_cases method count (Text.utf8 key)
  lt_two_pow_width := ofBytes_lt method count (Text.utf8 key)
  two_pow_width_le := Bucket.two_pow_width_le positive

theorem IsFound.lt {method : HashMethod} {count : Nat} {key : String}
    (found : IsFound method count key) : ofKey method count key < count :=
  Nat.lt_of_lt_of_le found.lt_two_pow_width found.two_pow_width_le

end Bucket

namespace Scheduler

/-- A key is answered with some of the hosts, each at most once. -/
structure Answers (scheduler : Scheduler) (key : String) : Prop where
  nonempty : scheduler.route key ≠ []
  nodup : (scheduler.route key).Nodup
  index_lt : ∀ index ∈ scheduler.route key, index < scheduler.hosts.length
  hostsFor_eq : (scheduler.hostsFor key).map some =
    (scheduler.route key).map fun index => scheduler.hosts[index]?

/-- Where all indices are in range, none is left out. -/
theorem map_some_filterMap_getElem? {hosts : List Host} {indices : List Nat}
    (inRange : ∀ index ∈ indices, index < hosts.length) :
    (indices.filterMap fun index => hosts[index]?).map some =
      indices.map fun index => hosts[index]? := by
  induction indices with
  | nil => rfl
  | cons index rest ih =>
      obtain ⟨indexLt, restLt⟩ := List.forall_mem_cons.mp inRange
      have found := List.getElem?_eq_getElem indexLt
      rw [List.filterMap_cons, found, List.map_cons, List.map_cons, found, ih restLt]

theorem answers_of_route {scheduler : Scheduler} {key : String}
    (nonempty : scheduler.route key ≠ []) (nodup : (scheduler.route key).Nodup)
    (index_lt : ∀ index ∈ scheduler.route key, index < scheduler.hosts.length) :
    scheduler.Answers key :=
  ⟨nonempty, nodup, index_lt, map_some_filterMap_getElem? index_lt⟩

theorem answers_of_singleton {scheduler : Scheduler} {key : String} {index : Nat}
    (isRoute : scheduler.route key = [index]) (index_lt : index < scheduler.hosts.length) :
    scheduler.Answers key := by
  refine answers_of_route ?_ ?_ ?_
  · simp [isRoute]
  · simp [isRoute]
  · simpa [isRoute] using index_lt

end Scheduler

theorem ModuloRouter.build_eq_ok {hosts : List Host} {method : HashMethod} {router : ModuloRouter}
    (built : build hosts method = .ok router) : hosts ≠ [] ∧ router = ⟨hosts, method⟩ := by
  unfold build at built
  split at built
  · cases built
  · next notEmpty =>
    cases built
    exact ⟨by simpa using notEmpty, rfl⟩

theorem ModuloRouter.hosts_length_pos {hosts : List Host} {method : HashMethod}
    {router : ModuloRouter} (built : build hosts method = .ok router) :
    0 < router.hosts.length := by
  obtain ⟨notEmpty, rfl⟩ := build_eq_ok built
  exact List.length_pos_iff.mpr notEmpty

theorem ModuloRouter.answers {hosts : List Host} {method : HashMethod} {router : ModuloRouter}
    (built : build hosts method = .ok router) (key : String) :
    (Scheduler.modulo router).Answers key :=
  Scheduler.answers_of_singleton rfl (Nat.mod_lt _ (hosts_length_pos built))

theorem RingRouter.answers {hosts : List Host} {method : HashMethod} {router : RingRouter}
    (built : build hosts method = .ok router) (key : String) :
    (Scheduler.consistent router).Answers key :=
  Scheduler.answers_of_singleton rfl (ownerOf_lt built _)

namespace ManualRouter

/-- Turning to the right is turning to the left by the rest of the length. -/
theorem rotateRight_eq_rotate (members : List Nat) (amount : Nat) :
    members.rotateRight amount = members.rotate (members.length - amount % members.length) := by
  unfold List.rotateRight
  dsimp only
  split
  · next short =>
    rcases Nat.le_one_iff_eq_zero_or_eq_one.mp short with isEmpty | isSingle
    · rw [List.length_eq_zero_iff.mp isEmpty, List.rotate_nil]
    · obtain ⟨member, rfl⟩ := List.length_eq_one_iff.mp isSingle
      rw [List.rotate_singleton]
  · rw [List.rotate_eq_drop_append_take (Nat.sub_le _ _)]

theorem rotateRight_perm (members : List Nat) (amount : Nat) :
    (members.rotateRight amount).Perm members := by
  rw [rotateRight_eq_rotate]
  exact List.rotate_perm ..

theorem route_eq_rotateRight {router : ManualRouter} {key : String} {members : List Nat}
    (has : router.members[router.bucketOf key]? = some members) :
    router.route key = members.rotateRight (router.method.hashText key % members.length) := by
  rw [route, Array.getD_eq_getD_getElem?, has]
  rfl

section Built

variable {assignment : List (Host × List Nat)} {method : HashMethod} {router : ManualRouter}

theorem bucketOf_isFound (built : build assignment method = .ok router) (key : String) :
    Bucket.IsFound router.method router.bucketCount key := by
  obtain ⟨-, -, positive, accepted, -⟩ := build_eq_ok built
  exact Bucket.isFound router.method positive accepted key

theorem members_bucketOf (built : build assignment method = .ok router) (key : String) :
    router.members[router.bucketOf key]? = some (servers assignment (router.bucketOf key)) ∧
      servers assignment (router.bucketOf key) ≠ [] := by
  obtain ⟨-, -, -, -, members⟩ := build_eq_ok built
  exact members _ (bucketOf_isFound built key).lt

/-- The route of a key consists of the hosts that serve its bucket. -/
theorem route_perm (built : build assignment method = .ok router) (key : String) :
    (router.route key).Perm (servers assignment (router.bucketOf key)) := by
  obtain ⟨has, -⟩ := members_bucketOf built key
  rw [route_eq_rotateRight has]
  exact rotateRight_perm ..

theorem answers (built : build assignment method = .ok router) (key : String) :
    (Scheduler.manual router).Answers key := by
  have perm := route_perm built key
  obtain ⟨-, someServe⟩ := members_bucketOf built key
  refine Scheduler.answers_of_route ?_ ?_ ?_
  · intro isEmpty
    exact someServe (List.nil_perm.mp (isEmpty ▸ perm))
  · exact perm.nodup_iff.mpr (nodup_servers ..)
  · intro index member
    obtain ⟨host, served, found, -⟩ := mem_servers_iff.mp (perm.mem_iff.mp member)
    have inside := (List.getElem?_eq_some_iff.mp found).1
    obtain ⟨hostsEq, -⟩ := build_eq_ok built
    rwa [Scheduler.hosts, hostsEq, List.length_map]

end Built

end ManualRouter

namespace AutoRouter

variable {hosts : List Host} {bucketCount : Nat} {method : HashMethod} {options : AutoOptions}
  {hasRuntime : Bool} {router reached : AutoRouter Float} {actions : List (Action Float)}

theorem eq_of_run? (built : build hosts bucketCount method options hasRuntime = .ok router)
    (ran : router.run? actions = some reached) :
    reached.hosts = hosts ∧ reached.bucketCount = bucketCount := by
  obtain ⟨-, -, rfl⟩ := build_eq_ok built
  obtain ⟨reachedEq, -⟩ := dispatch_of_run? ran
  rw [reachedEq]
  exact ⟨rfl, rfl⟩

theorem bucketOf_isFound (built : build hosts bucketCount method options hasRuntime = .ok router)
    (ran : router.run? actions = some reached) (key : String) :
    Bucket.IsFound reached.method reached.bucketCount key := by
  obtain ⟨accepted, -, -⟩ := build_eq_ok built
  obtain ⟨-, countEq⟩ := eq_of_run? built ran
  obtain ⟨powerOfTwo, atMost⟩ := Config.acceptsBucketCount_iff.mp accepted
  rw [countEq]
  exact Bucket.isFound reached.method (Nat.pos_of_isPowerOfTwo powerOfTwo) atMost key

/-- The route of a key is the published order of its bucket, which has all hosts. -/
theorem exists_view?_bucketOf
    (built : build hosts bucketCount method options hasRuntime = .ok router)
    (ran : router.run? actions = some reached) (key : String) :
    ∃ view, reached.view? (reached.bucketOf key) = some view ∧
      reached.route key = view.order ∧ view.order.Perm (List.range reached.hosts.length) := by
  obtain ⟨hostsEq, countEq⟩ := eq_of_run? built ran
  obtain ⟨-, published⟩ := isRanked_of_run? built ran
  have known : reached.bucketOf key < bucketCount := countEq ▸ (bucketOf_isFound built ran key).lt
  obtain ⟨view, has, ranking⟩ := published.exists_view? known
  refine ⟨view, has, ?_, hostsEq ▸ ranking.perm⟩
  have isView : reached.view? (reached.bucketOf key) = some view := has
  rw [route, isView]
  rfl

theorem answers (built : build hosts bucketCount method options hasRuntime = .ok router)
    (ran : router.run? actions = some reached) (key : String) :
    (Scheduler.auto reached).Answers key := by
  obtain ⟨view, -, routeEq, perm⟩ := exists_view?_bucketOf built ran key
  have routePerm : ((Scheduler.auto reached).route key).Perm (List.range reached.hosts.length) := by
    rw [Scheduler.route, routeEq]
    exact perm
  refine Scheduler.answers_of_route ?_ ?_ ?_
  · intro isEmpty
    obtain ⟨-, notEmpty, -⟩ := build_eq_ok built
    obtain ⟨hostsEq, -⟩ := eq_of_run? built ran
    have noHosts := List.nil_perm.mp (isEmpty ▸ routePerm)
    rw [List.range_eq_nil, hostsEq, List.length_eq_zero_iff] at noHosts
    exact notEmpty noHosts
  · exact routePerm.nodup_iff.mpr List.nodup_range
  · intro index member
    exact List.mem_range.mp (routePerm.mem_iff.mp member)

end AutoRouter

/-- Routing never fails: what is looked up for a key is there, and the key is answered with
some hosts, none of them twice: one by remainder or by the ring, those that serve its bucket
by assignment, and all of them by experience. -/
theorem routing_never_fails :
    (∀ hosts method router, ModuloRouter.build hosts method = .ok router → ∀ key,
      0 < router.hosts.length ∧
        (Scheduler.modulo router).Answers key ∧ (router.route key).length = 1) ∧
    (∀ hosts method router, RingRouter.build hosts method = .ok router → ∀ key,
      router.successor (router.method.hashText key) < router.ring.size ∧
        (∀ entry ∈ router.ring, entry.packed % 2 ^ 32 < router.hosts.length) ∧
        (Scheduler.consistent router).Answers key ∧ (router.route key).length = 1) ∧
    (∀ assignment method router, ManualRouter.build assignment method = .ok router → ∀ key,
      Bucket.IsFound router.method router.bucketCount key ∧
        (∃ members, router.members[router.bucketOf key]? = some members ∧ members ≠ [] ∧
          router.method.hashText key % members.length < members.length) ∧
        (Scheduler.manual router).Answers key ∧
        ∀ index, index ∈ router.route key ↔
          ∃ host served, assignment[index]? = some (host, served) ∧
            router.bucketOf key ∈ served) ∧
    ∀ hosts bucketCount method options hasRuntime router actions reached,
      AutoRouter.build hosts bucketCount method options hasRuntime = .ok router →
      router.run? actions = some reached → ∀ key,
        Bucket.IsFound reached.method reached.bucketCount key ∧
          (∃ view, reached.view? (reached.bucketOf key) = some view) ∧
          (Scheduler.auto reached).Answers key ∧
          (reached.route key).Perm (List.range reached.hosts.length) := by
  refine ⟨?_, ?_, ?_, ?_⟩
  · intro hosts method router built key
    exact ⟨ModuloRouter.hosts_length_pos built, ModuloRouter.answers built key, rfl⟩
  · intro hosts method router built key
    refine ⟨RingRouter.successor_lt built _, ?_, RingRouter.answers built key, rfl⟩
    exact fun entry member => RingRouter.packed_mod_lt_of_mem_ring built member
  · intro assignment method router built key
    obtain ⟨has, someServe⟩ := ManualRouter.members_bucketOf built key
    have rotationLt := Nat.mod_lt (router.method.hashText key) (List.length_pos_iff.mpr someServe)
    refine ⟨ManualRouter.bucketOf_isFound built key, ⟨_, has, someServe, rotationLt⟩,
      ManualRouter.answers built key, ?_⟩
    intro index
    rw [(ManualRouter.route_perm built key).mem_iff, ManualRouter.mem_servers_iff]
  · intro hosts bucketCount method options hasRuntime router actions reached built ran key
    obtain ⟨view, has, routeEq, perm⟩ := AutoRouter.exists_view?_bucketOf built ran key
    exact ⟨AutoRouter.bucketOf_isFound built ran key, ⟨view, has⟩,
      AutoRouter.answers built ran key, routeEq ▸ perm⟩

/-- A sign with nothing behind it goes to the first bucket. -/
theorem routing_never_fails_for_bare_sign :
    ∃ router, ManualRouter.build [(⟨"a:1"⟩, [2, 0, 2]), (⟨"b:1"⟩, [1])] .crc32 = .ok router ∧
      router.route "@" = [0] ∧ (Scheduler.manual router).Answers "@" := by
  have built : ManualRouter.build [(⟨"a:1"⟩, [2, 0, 2]), (⟨"b:1"⟩, [1])] .crc32 =
      .ok ⟨[⟨"a:1"⟩, ⟨"b:1"⟩], #[[0], [1], [0]], .crc32⟩ := by cbv
  have found := routing_never_fails.2.2.1 _ _ _ built "@"
  exact ⟨_, built, by decide, found.2.2.1⟩

end CacheRouting
