import CacheRouting.Routing.Manual

/-!
# Members of a bucket

Hosts are entered one after the other in the buckets they serve.  A bucket ends
up with the hosts that serve it, each once and in the order of their indices,
however often and in whatever order a host names its buckets.
-/

namespace CacheRouting

namespace ManualRouter

/-- The number of buckets that are counted is enough for all that are served, and never
more than there may be. -/
theorem countBuckets_eq_ok {seen : List String} {count total : Nat}
    {assignment : List (Host × List Nat)} (counted : countBuckets seen count assignment = .ok total) :
    count ≤ total ∧ total ≤ max count Config.maxBucketCount ∧
      ∀ entry ∈ assignment, ∀ bucket ∈ entry.2, bucket < total := by
  induction assignment generalizing seen count with
  | nil =>
      cases counted
      exact ⟨Nat.le_refl _, Nat.le_max_left .., by simp⟩
  | cons entry rest ih =>
      obtain ⟨host, served⟩ := entry
      rw [countBuckets] at counted
      split at counted
      · cases counted
      · split at counted
        · next noneServed =>
          obtain ⟨atLeast, atMost, restServed⟩ := ih counted
          rw [List.max?_eq_none_iff] at noneServed
          exact ⟨atLeast, atMost, List.forall_mem_cons.mpr ⟨by simp [noneServed], restServed⟩⟩
        · next largest isLargest =>
          split at counted
          · cases counted
          · next allowed =>
            obtain ⟨atLeast, atMost, restServed⟩ := ih counted
            refine ⟨by omega, by omega, List.forall_mem_cons.mpr ⟨?_, restServed⟩⟩
            intro bucket isServed
            have bucketLe := (List.max?_eq_some_iff.mp isLargest).2 bucket isServed
            omega

theorem enter_enter (host : Nat) (members : List Nat) :
    enter host (enter host members) = enter host members := by
  by_cases isHead : members.head? = some host
  · simp only [enter, if_pos isHead]
  · simp only [enter, if_neg isHead, List.head?_cons, if_true]

theorem enter_of_lt {host : Nat} {members : List Nat} (earlier : ∀ other ∈ members, other < host) :
    enter host members = host :: members := by
  have notHead : members.head? ≠ some host := fun isHead =>
    Nat.lt_irrefl host (earlier host (List.mem_of_head? isHead))
  rw [enter, if_neg notHead]

theorem getElem?_enterServed (host : Nat) (served : List Nat) (buckets : Array (List Nat))
    (bucket : Nat) :
    (enterServed host served buckets)[bucket]? =
      if bucket ∈ served then buckets[bucket]?.map (enter host) else buckets[bucket]? := by
  induction served generalizing buckets with
  | nil => simp [enterServed]
  | cons first rest ih =>
      rw [enterServed, List.foldl_cons]
      change (enterServed host rest (buckets.modify first (enter host)))[bucket]? = _
      rw [ih, Array.getElem?_modify]
      by_cases same : first = bucket
      · simp [same, Option.map_map, Function.comp_def, enter_enter]
      · simp [same, Ne.symm same]

/-- The hosts, given by their indices from `start` on, that serve a bucket. -/
def serversFrom (start : Nat) (assignment : List (Host × List Nat)) (bucket : Nat) : List Nat :=
  ((assignment.zipIdx start).filter fun entry => entry.1.2.contains bucket).map (·.2)

abbrev servers (assignment : List (Host × List Nat)) (bucket : Nat) : List Nat :=
  serversFrom 0 assignment bucket

theorem serversFrom_cons (start : Nat) (entry : Host × List Nat)
    (assignment : List (Host × List Nat)) (bucket : Nat) :
    serversFrom start (entry :: assignment) bucket =
      if bucket ∈ entry.2 then start :: serversFrom (start + 1) assignment bucket
      else serversFrom (start + 1) assignment bucket := by
  rw [serversFrom, List.zipIdx_cons, List.filter_cons]
  by_cases isServed : bucket ∈ entry.2 <;> simp [isServed, serversFrom]

theorem mem_servers_iff {assignment : List (Host × List Nat)} {bucket index : Nat} :
    index ∈ servers assignment bucket ↔
      ∃ host served, assignment[index]? = some (host, served) ∧ bucket ∈ served := by
  simp only [servers, serversFrom, List.mem_map, List.mem_filter, Prod.exists, exists_eq_right,
    List.mem_zipIdx_iff_getElem?, List.contains_iff_mem]

theorem serversFrom_pairwise (start : Nat) (assignment : List (Host × List Nat)) (bucket : Nat) :
    (serversFrom start assignment bucket).Pairwise (· < ·) := by
  have sublist : (serversFrom start assignment bucket).Sublist
      ((assignment.zipIdx start).map (·.2)) := List.filter_sublist.map _
  rw [List.zipIdx_map_snd] at sublist
  exact List.Pairwise.sublist sublist List.pairwise_lt_range'

theorem nodup_servers (assignment : List (Host × List Nat)) (bucket : Nat) :
    (servers assignment bucket).Nodup :=
  (serversFrom_pairwise 0 assignment bucket).imp Nat.ne_of_lt

/-- Hosts that are entered after others come to stand in front of them, the latest first. -/
theorem getElem?_enterFrom {start bucket : Nat} {assignment : List (Host × List Nat)}
    {buckets : Array (List Nat)} {members : List Nat} (has : buckets[bucket]? = some members)
    (earlier : ∀ host ∈ members, host < start) :
    ((assignment.zipIdx start).foldl (fun buckets entry => enterServed entry.2 entry.1.2 buckets)
      buckets)[bucket]? = some ((serversFrom start assignment bucket).reverse ++ members) := by
  induction assignment generalizing start buckets members with
  | nil => exact has
  | cons entry rest ih =>
      rw [List.zipIdx_cons, List.foldl_cons, serversFrom_cons]
      by_cases isServed : bucket ∈ entry.2
      · have entered : (enterServed start entry.2 buckets)[bucket]? = some (start :: members) := by
          rw [getElem?_enterServed, if_pos isServed, has, Option.map_some, enter_of_lt earlier]
        have next : ∀ host ∈ start :: members, host < start + 1 := by
          intro host member
          rcases List.mem_cons.mp member with equal | inMembers
          · omega
          · have := earlier host inMembers
            omega
        rw [ih entered next, if_pos isServed, List.reverse_cons, List.append_assoc]
        rfl
      · have untouched : (enterServed start entry.2 buckets)[bucket]? = some members := by
          rw [getElem?_enterServed, if_neg isServed, has]
        have next : ∀ host ∈ members, host < start + 1 := fun host member =>
          Nat.lt_succ_of_lt (earlier host member)
        rw [ih untouched next, if_neg isServed]

theorem size_enterServed (host : Nat) (served : List Nat) (buckets : Array (List Nat)) :
    (enterServed host served buckets).size = buckets.size := by
  induction served generalizing buckets with
  | nil => rfl
  | cons first rest ih =>
      rw [enterServed, List.foldl_cons]
      change (enterServed host rest (buckets.modify first (enter host))).size = _
      rw [ih, Array.size_modify]

theorem size_enterAll (count : Nat) (assignment : List (Host × List Nat)) :
    (enterAll count assignment).size = count := by
  have sizeKept : ∀ (entries : List ((Host × List Nat) × Nat)) (buckets : Array (List Nat)),
      (entries.foldl (fun buckets entry => enterServed entry.2 entry.1.2 buckets) buckets).size =
        buckets.size := by
    intro entries
    induction entries with
    | nil => exact fun buckets => rfl
    | cons entry rest ih =>
        intro buckets
        rw [List.foldl_cons, ih, size_enterServed]
  rw [enterAll, Array.size_map, sizeKept, Array.size_replicate]

/-- The members of a bucket are the hosts that serve it. -/
theorem getElem?_enterAll {count bucket : Nat} (assignment : List (Host × List Nat))
    (known : bucket < count) :
    (enterAll count assignment)[bucket]? = some (servers assignment bucket) := by
  have atFirst : (Array.replicate count ([] : List Nat))[bucket]? = some [] := by
    simp [known]
  rw [enterAll, Array.getElem?_map, getElem?_enterFrom atFirst (by simp)]
  simp

/-- An assignment that is accepted has been entered in as many buckets as are counted, and
none of them has been left empty. -/
theorem exists_count_of_build {assignment : List (Host × List Nat)} {method : HashMethod}
    {router : ManualRouter} (built : build assignment method = .ok router) :
    ∃ count, countBuckets [] 1 assignment = .ok count ∧
      (enterAll count assignment).toList.findIdx? List.isEmpty = none ∧
      router = ⟨assignment.map (·.1), enterAll count assignment, method⟩ := by
  unfold build at built
  split at built
  · cases built
  · split at built
    · cases built
    · next count counted =>
      dsimp only at built
      split at built
      · cases built
      · next noneEmpty =>
        cases built
        exact ⟨count, counted, noneEmpty, rfl⟩

/-- A table has some buckets, not too many, and the hosts that serve a bucket, of which
there are some, are its members. -/
theorem build_eq_ok {assignment : List (Host × List Nat)} {method : HashMethod}
    {router : ManualRouter} (built : build assignment method = .ok router) :
    router.hosts = assignment.map (·.1) ∧ router.method = method ∧
      0 < router.bucketCount ∧ router.bucketCount ≤ Config.maxBucketCount ∧
      ∀ bucket < router.bucketCount,
        router.members[bucket]? = some (servers assignment bucket) ∧
          servers assignment bucket ≠ [] := by
  obtain ⟨count, counted, noneEmpty, rfl⟩ := exists_count_of_build built
  obtain ⟨atLeast, atMost, -⟩ := countBuckets_eq_ok counted
  refine ⟨rfl, rfl, ?_, ?_, ?_⟩
  · rw [bucketCount, size_enterAll]
    exact atLeast
  · rw [bucketCount, size_enterAll]
    exact atMost
  · intro bucket known
    rw [bucketCount, size_enterAll] at known
    have found := getElem?_enterAll assignment known
    refine ⟨found, ?_⟩
    have member : servers assignment bucket ∈ (enterAll count assignment).toList :=
      Array.mem_toList_iff.mpr (Array.mem_of_getElem? found)
    simpa using List.findIdx?_eq_none_iff.mp noneEmpty _ member

theorem lt_bucketCount_of_mem_servers {assignment : List (Host × List Nat)} {method : HashMethod}
    {router : ManualRouter} (built : build assignment method = .ok router) {index bucket : Nat}
    (isServer : index ∈ servers assignment bucket) : bucket < router.bucketCount := by
  obtain ⟨count, counted, -, rfl⟩ := exists_count_of_build built
  obtain ⟨host, served, found, isServed⟩ := mem_servers_iff.mp isServer
  rw [bucketCount, size_enterAll]
  exact (countBuckets_eq_ok counted).2.2 _ (List.mem_of_getElem? found) bucket isServed

end ManualRouter

end CacheRouting
