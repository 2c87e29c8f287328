import CacheRouting.Proofs.Routing.Scheduler
import CacheRouting.Proofs.Text.Utf8

/-!
# Buckets that keys reach

The top bits of a hash select one of as many buckets as there are numbers with so
many bits, and each of these is selected by some hash.  The buckets of an
assignment may be more, for their number need not be a power of two.  Those behind
the power are served, but neither a hash nor the digits of an administrative key
lead to them, so a host that serves no others gets no key at all.
-/

namespace CacheRouting

namespace Bucket

/-- A key that stands for itself: neither sign that makes a key special is in front. -/
def IsOrdinary (key : String) : Prop :=
  key.toList.head? ≠ some '@' ∧ key.toList.head? ≠ some '?'

/-- Only a key with the sign in front can spell its bucket. -/
theorem ofKey_of_head?_ne {key : String} (noSign : key.toList.head? ≠ some '@')
    (method : HashMethod) (count : Nat) :
    ofKey method count key = hashed method count (Text.utf8 key) := by
  have notSpelled := mt (Text.head?_utf8_iff (by decide)).mp noSign
  unfold ofKey ofBytes
  split
  · next rest isSpelled =>
    rw [isSpelled] at notSpelled
    exact absurd rfl notSpelled
  · rfl

/-- The bucket of an ordinary key is in the top bits of its hash. -/
theorem ofKey_of_isOrdinary {key : String} (ordinary : IsOrdinary key) (method : HashMethod)
    (count : Nat) : ofKey method count key = topBits (width count) (method.hashText key) := by
  have notEscaped := mt (Text.head?_utf8_iff (by decide)).mp ordinary.2
  have keepsAll : dropQuestionMark (Text.utf8 key) = Text.utf8 key := by
    unfold dropQuestionMark
    split
    · next rest isEscaped =>
      rw [isEscaped] at notEscaped
      exact absurd rfl notEscaped
    · rfl
  rw [ofKey_of_head?_ne ordinary.1, hashed, keepsAll, HashMethod.hashText]

/-- The hashes with the same top bits stand in a row. -/
theorem topBits_eq_iff {bits hash bucket : Nat} :
    topBits bits hash = bucket ↔
      bucket * 2 ^ (32 - bits) ≤ hash ∧ hash < bucket * 2 ^ (32 - bits) + 2 ^ (32 - bits) := by
  have positive := Nat.two_pow_pos (32 - bits)
  rw [topBits, Nat.shiftRight_eq_div_pow, Nat.div_eq_iff positive]
  omega

/-- The rows of all numbers with so many bits are among the hashes. -/
theorem row_le {bits bucket : Nat} (fits : bits ≤ 32) (small : bucket < 2 ^ bits) :
    bucket * 2 ^ (32 - bits) + 2 ^ (32 - bits) ≤ 2 ^ 32 :=
  calc
    bucket * 2 ^ (32 - bits) + 2 ^ (32 - bits) = (bucket + 1) * 2 ^ (32 - bits) := by ring
    _ ≤ 2 ^ bits * 2 ^ (32 - bits) := Nat.mul_le_mul_right _ small
    _ = 2 ^ 32 := by rw [← Nat.pow_add, Nat.add_sub_cancel' fits]

/-- Every number with so many bits stands in front of some hash. -/
theorem exists_topBits_eq_iff {bits bucket : Nat} (fits : bits ≤ 32) :
    (∃ hash < 2 ^ 32, topBits bits hash = bucket) ↔ bucket < 2 ^ bits := by
  constructor
  · rintro ⟨hash, word, rfl⟩
    exact topBits_lt word
  · intro small
    have startLt : bucket * 2 ^ (32 - bits) < bucket * 2 ^ (32 - bits) + 2 ^ (32 - bits) :=
      Nat.lt_add_of_pos_right (Nat.two_pow_pos _)
    exact ⟨bucket * 2 ^ (32 - bits), startLt.trans_le (row_le fits small),
      topBits_eq_iff.mpr ⟨le_rfl, startLt⟩⟩

theorem two_pow_width_of_two_pow {count bits : Nat} (isPower : count = 2 ^ bits) :
    2 ^ width count = count := by
  rw [width_eq_log2, isPower, Nat.log2_two_pow]

end Bucket

namespace ManualRouter

def reachedCount (router : ManualRouter) : Nat :=
  2 ^ Bucket.width router.bucketCount

def bucketByHash (router : ManualRouter) (hash : Nat) : Nat :=
  Bucket.topBits (Bucket.width router.bucketCount) hash

def routeByHash (router : ManualRouter) (hash : Nat) : List Nat :=
  let members := router.members.getD (router.bucketByHash hash) []
  members.rotateRight (hash % members.length)

theorem bucketOf_of_isOrdinary (router : ManualRouter) {key : String}
    (ordinary : Bucket.IsOrdinary key) :
    router.bucketOf key = router.bucketByHash (router.method.hashText key) :=
  Bucket.ofKey_of_isOrdinary ordinary router.method router.bucketCount

theorem route_of_isOrdinary (router : ManualRouter) {key : String}
    (ordinary : Bucket.IsOrdinary key) :
    router.route key = router.routeByHash (router.method.hashText key) := by
  rw [route, bucketOf_of_isOrdinary router ordinary]
  rfl

theorem routeByHash_eq_rotateRight {router : ManualRouter} {hash : Nat} {members : List Nat}
    (has : router.members[router.bucketByHash hash]? = some members) :
    router.routeByHash hash = members.rotateRight (hash % members.length) := by
  rw [routeByHash, Array.getD_eq_getD_getElem?, has]
  rfl

/-- Whatever a key looks like, its bucket is one of those that hashes select. -/
theorem bucketOf_lt_reachedCount (router : ManualRouter) (key : String) :
    router.bucketOf key < router.reachedCount :=
  Bucket.ofBytes_lt router.method router.bucketCount (Text.utf8 key)

section Built

variable {assignment : List (Host × List Nat)} {method : HashMethod} {router : ManualRouter}

theorem reachedCount_le (built : build assignment method = .ok router) :
    router.reachedCount ≤ router.bucketCount := by
  obtain ⟨-, -, positive, -⟩ := build_eq_ok built
  exact Bucket.two_pow_width_le positive

theorem width_le (built : build assignment method = .ok router) :
    Bucket.width router.bucketCount ≤ 32 := by
  obtain ⟨-, -, -, accepted, -⟩ := build_eq_ok built
  exact Bucket.width_le (accepted.trans (by decide))

theorem exists_bucketByHash_eq_iff (built : build assignment method = .ok router) (bucket : Nat) :
    (∃ hash < 2 ^ 32, router.bucketByHash hash = bucket) ↔ bucket < router.reachedCount :=
  Bucket.exists_topBits_eq_iff (width_le built)

theorem routeByHash_perm (built : build assignment method = .ok router) {hash : Nat}
    (word : hash < 2 ^ 32) :
    (router.routeByHash hash).Perm (servers assignment (router.bucketByHash hash)) := by
  obtain ⟨-, -, -, -, members⟩ := build_eq_ok built
  have selected : router.bucketByHash hash < router.reachedCount := Bucket.topBits_lt word
  obtain ⟨has, -⟩ := members _ (selected.trans_le (reachedCount_le built))
  rw [routeByHash_eq_rotateRight has]
  exact rotateRight_perm ..

theorem exists_mem_routeByHash_iff (built : build assignment method = .ok router) (index : Nat) :
    (∃ hash < 2 ^ 32, index ∈ router.routeByHash hash) ↔
      ∃ bucket < router.reachedCount, index ∈ servers assignment bucket := by
  constructor
  · rintro ⟨hash, word, member⟩
    have selected := (exists_bucketByHash_eq_iff built _).mp ⟨hash, word, rfl⟩
    exact ⟨_, selected, (routeByHash_perm built word).mem_iff.mp member⟩
  · rintro ⟨bucket, known, isServer⟩
    obtain ⟨hash, word, rfl⟩ := (exists_bucketByHash_eq_iff built bucket).mpr known
    exact ⟨hash, word, (routeByHash_perm built word).mem_iff.mpr isServer⟩

theorem exists_server_of_mem_route (built : build assignment method = .ok router) {index : Nat}
    {key : String} (member : index ∈ router.route key) :
    ∃ bucket < router.reachedCount, index ∈ servers assignment bucket :=
  ⟨_, bucketOf_lt_reachedCount router key, (route_perm built key).mem_iff.mp member⟩

end Built

/-- The buckets of an assignment are reached up to a power of two: hashes select each of these,
and no key gets any other.  So all buckets and all hosts that serve any are reached if the
number of buckets is a power of two, and a host that serves none but others is never given a
key. -/
theorem buckets_are_reached_up_to_power {assignment : List (Host × List Nat)} {method : HashMethod}
    {router : ManualRouter} (built : build assignment method = .ok router) :
    (∀ key, Bucket.IsOrdinary key →
      router.bucketOf key = router.bucketByHash (router.method.hashText key) ∧
        router.route key = router.routeByHash (router.method.hashText key)) ∧
    (∀ bucket < router.bucketCount,
      (∃ hash < 2 ^ 32, router.bucketByHash hash = bucket) ↔ bucket < router.reachedCount) ∧
    (∀ index, (∃ hash < 2 ^ 32, index ∈ router.routeByHash hash) ↔
      ∃ bucket < router.reachedCount, index ∈ servers assignment bucket) ∧
    (∀ key, router.bucketOf key < router.reachedCount ∧
      ∀ index ∈ router.route key, ∃ bucket < router.reachedCount,
        index ∈ servers assignment bucket) ∧
    ((∃ bits, router.bucketCount = 2 ^ bits) →
      (∀ bucket < router.bucketCount, ∃ hash < 2 ^ 32, router.bucketByHash hash = bucket) ∧
        ∀ index bucket, index ∈ servers assignment bucket →
          ∃ hash < 2 ^ 32, index ∈ router.routeByHash hash) := by
  refine ⟨?_, ?_, exists_mem_routeByHash_iff built, ?_, ?_⟩
  · intro key ordinary
    exact ⟨bucketOf_of_isOrdinary router ordinary, route_of_isOrdinary router ordinary⟩
  · exact fun bucket _ => exists_bucketByHash_eq_iff built bucket
  · intro key
    exact ⟨bucketOf_lt_reachedCount router key,
      fun index member => exists_server_of_mem_route built member⟩
  · rintro ⟨bits, isPower⟩
    have reachesAll : router.reachedCount = router.bucketCount :=
      Bucket.two_pow_width_of_two_pow isPower
    refine ⟨fun bucket known => ?_, fun index bucket isServer => ?_⟩
    · exact (exists_bucketByHash_eq_iff built bucket).mpr (reachesAll ▸ known)
    · have known := lt_bucketCount_of_mem_servers built isServer
      exact (exists_mem_routeByHash_iff built index).mpr ⟨bucket, reachesAll ▸ known, isServer⟩

/-- Of five buckets the last is not reached, but a host that serves it gets the keys of the
others it serves. -/
theorem buckets_are_reached_up_to_power_of_four :
    ∃ router, build [(⟨"a:1"⟩, [0, 3]), (⟨"b:1"⟩, [4, 1, 2])] .crc32 = .ok router ∧
      router.bucketCount = 5 ∧ (¬ ∃ hash < 2 ^ 32, router.bucketByHash hash = 4) ∧
      ∃ hash < 2 ^ 32, 1 ∈ router.routeByHash hash := by
  have built : build [(⟨"a:1"⟩, [0, 3]), (⟨"b:1"⟩, [4, 1, 2])] .crc32 =
      .ok ⟨[⟨"a:1"⟩, ⟨"b:1"⟩], #[[0], [1], [1], [0], [1]], .crc32⟩ := by cbv
  obtain ⟨-, buckets, hosts, -⟩ := buckets_are_reached_up_to_power built
  refine ⟨_, built, rfl, fun selected => ?_, (hosts 1).mpr ⟨2, by decide, by decide⟩⟩
  exact absurd ((buckets 4 (by decide)).mp selected) (by decide)

/-- The third of three buckets is served by a host of its own, which is among the hosts and
is never given a key. -/
theorem third_bucket_is_not_reached :
    ∃ router, build [(⟨"a:1"⟩, [0, 1]), (⟨"b:1"⟩, [2])] .fnv1a = .ok router ∧
      router.hosts[1]? = some ⟨"b:1"⟩ ∧ router.members[2]? = some [1] ∧
      (¬ ∃ hash < 2 ^ 32, router.bucketByHash hash = 2) ∧ ∀ key, 1 ∉ router.route key := by
  have built : build [(⟨"a:1"⟩, [0, 1]), (⟨"b:1"⟩, [2])] .fnv1a =
      .ok ⟨[⟨"a:1"⟩, ⟨"b:1"⟩], #[[0], [0], [1]], .fnv1a⟩ := by cbv
  refine ⟨_, built, rfl, rfl, fun selected => ?_, fun key member => ?_⟩
  · exact absurd ((exists_bucketByHash_eq_iff built 2).mp selected) (by decide)
  · obtain ⟨bucket, known, isServer⟩ := exists_server_of_mem_route built member
    have noServer : ∀ bucket < 2, 1 ∉ servers [(⟨"a:1"⟩, [0, 1]), (⟨"b:1"⟩, [2])] bucket := by
      decide
    exact noServer bucket known isServer

end ManualRouter

end CacheRouting
