import CacheRouting.Proofs.Routing.Manual
import Mathlib.Data.List.Nodup

/-!
# Assignments that are refused

An assignment to distinct hosts is refused for two reasons only.  The hosts are
gone through in order, and the first that serves a bucket past the limit is
reported; if none does, the first bucket that nobody serves is, among as many as
the largest bucket that is served calls for.
-/

namespace CacheRouting

namespace ManualRouter

def referencedCount (assignment : List (Host × List Nat)) : Nat :=
  ((assignment.flatMap (·.2)).max?.map (· + 1)).getD 1

def StaysInLimit (assignment : List (Host × List Nat)) : Prop :=
  ∀ entry ∈ assignment, ∀ bucket ∈ entry.2, bucket < Config.maxBucketCount

/-- The first host that serves a bucket past the limit serves this one, and none after it. -/
def LeavesLimitAt (assignment : List (Host × List Nat)) (largest : Nat) : Prop :=
  ∃ before host served after, assignment = before ++ (host, served) :: after ∧
    StaysInLimit before ∧ served.max? = some largest ∧ Config.maxBucketCount ≤ largest

structure IsFirstUnserved (assignment : List (Host × List Nat)) (bucket : Nat) : Prop where
  lt : bucket < referencedCount assignment
  unserved : ∀ entry ∈ assignment, bucket ∉ entry.2
  served : ∀ earlier < bucket, ∃ entry ∈ assignment, earlier ∈ entry.2

theorem leavesLimitAt_cons {host : Host} {served : List Nat} {assignment : List (Host × List Nat)}
    {largest : Nat} :
    LeavesLimitAt ((host, served) :: assignment) largest ↔
      served.max? = some largest ∧ Config.maxBucketCount ≤ largest ∨
        (∀ bucket ∈ served, bucket < Config.maxBucketCount) ∧ LeavesLimitAt assignment largest := by
  constructor
  · rintro ⟨before, other, otherServed, after, assignmentEq, inLimit, isLargest, tooLarge⟩
    cases before with
    | nil =>
        cases assignmentEq
        exact Or.inl ⟨isLargest, tooLarge⟩
    | cons first before =>
        cases assignmentEq
        obtain ⟨firstInLimit, inLimit⟩ := List.forall_mem_cons.mp inLimit
        exact Or.inr ⟨firstInLimit, before, other, otherServed, after, rfl, inLimit, isLargest,
          tooLarge⟩
  · rintro (⟨isLargest, tooLarge⟩ | ⟨firstInLimit, before, other, otherServed, after, rfl, inLimit,
      isLargest, tooLarge⟩)
    · exact ⟨[], host, served, assignment, rfl, by simp [StaysInLimit], isLargest, tooLarge⟩
    · exact ⟨(host, served) :: before, other, otherServed, after, rfl,
        List.forall_mem_cons.mpr ⟨firstInLimit, inLimit⟩, isLargest, tooLarge⟩

theorem not_isFirstUnserved_iff {assignment : List (Host × List Nat)} :
    (∀ bucket, ¬ IsFirstUnserved assignment bucket) ↔
      ∀ bucket < referencedCount assignment, ∃ entry ∈ assignment, bucket ∈ entry.2 := by
  constructor
  · intro noneFirst bucket known
    induction bucket using Nat.strongRecOn with
    | ind bucket ih =>
        by_contra unserved
        push Not at unserved
        refine noneFirst bucket ⟨known, unserved, fun earlier earlierLt => ?_⟩
        exact ih earlier earlierLt (Nat.lt_trans earlierLt known)
  · intro allServed bucket isFirst
    obtain ⟨entry, member, isServed⟩ := allServed bucket isFirst.lt
    exact isFirst.unserved entry member isServed

/-- Over distinct hosts the count is refused only for a bucket past the limit. -/
theorem countBuckets_eq_error_iff {seen : List String} {count : Nat}
    {assignment : List (Host × List Nat)} {error : SchedulerError}
    (distinct : (assignment.map fun entry => entry.1.address).Nodup)
    (fresh : ∀ entry ∈ assignment, entry.1.address ∉ seen) :
    countBuckets seen count assignment = .error error ↔
      ∃ largest, LeavesLimitAt assignment largest ∧ error = .invalidBucketCount (largest + 1) := by
  induction assignment generalizing seen count with
  | nil =>
      rw [countBuckets]
      constructor
      · intro refused
        cases refused
      · rintro ⟨largest, ⟨before, host, served, after, isEmpty, -⟩, -⟩
        simp at isEmpty
  | cons entry assignment ih =>
      obtain ⟨host, served⟩ := entry
      obtain ⟨hostFresh, fresh⟩ := List.forall_mem_cons.mp fresh
      obtain ⟨notLater, distinct⟩ := List.nodup_cons.mp distinct
      have freshAfter : ∀ entry ∈ assignment, entry.1.address ∉ host.address :: seen := by
        intro entry member
        rw [List.mem_cons, not_or]
        exact ⟨fun same => notLater (List.mem_map.mpr ⟨entry, member, same⟩), fresh entry member⟩
      simp only [countBuckets, if_neg hostFresh, leavesLimitAt_cons]
      cases isLargest : served.max? with
      | none =>
          have noneServed : served = [] := List.max?_eq_none_iff.mp isLargest
          simp [ih distinct freshAfter, noneServed]
      | some largest =>
          have bound := (List.max?_eq_some_iff.mp isLargest).2
          by_cases tooLarge : Config.maxBucketCount ≤ largest
          · have notInLimit : ¬ ∀ bucket ∈ served, bucket < Config.maxBucketCount := fun inLimit =>
              absurd (inLimit largest (List.max?_mem isLargest)) (Nat.not_lt.mpr tooLarge)
            simp [tooLarge, notInLimit, eq_comm]
          · have inLimit : ∀ bucket ∈ served, bucket < Config.maxBucketCount := fun bucket member =>
              Nat.lt_of_le_of_lt (bound bucket member) (Nat.lt_of_not_le tooLarge)
            simp only [if_neg tooLarge, ih distinct freshAfter, Option.some.injEq]
            refine exists_congr fun other => and_congr_left fun _ => ?_
            constructor
            · exact fun leaves => Or.inr ⟨inLimit, leaves⟩
            · rintro (⟨rfl, tooLarge'⟩ | ⟨-, leaves⟩)
              · exact absurd tooLarge' tooLarge
              · exact leaves

theorem LeavesLimitAt.not_staysInLimit {assignment : List (Host × List Nat)} {largest : Nat}
    (leaves : LeavesLimitAt assignment largest) : ¬ StaysInLimit assignment := by
  obtain ⟨before, host, served, after, rfl, -, isLargest, tooLarge⟩ := leaves
  intro inLimit
  have known := inLimit (host, served) (by simp) largest (List.max?_mem isLargest)
  exact absurd known (Nat.not_lt.mpr tooLarge)

theorem eq_or_mem_of_countBuckets {seen : List String} {count total : Nat}
    {assignment : List (Host × List Nat)} (counted : countBuckets seen count assignment = .ok total) :
    total = count ∨ ∃ entry ∈ assignment, ∃ bucket ∈ entry.2, total = bucket + 1 := by
  induction assignment generalizing seen count with
  | nil =>
      cases counted
      exact Or.inl rfl
  | cons entry assignment ih =>
      obtain ⟨host, served⟩ := entry
      rw [countBuckets] at counted
      split at counted
      · cases counted
      · split at counted
        · rcases ih counted with same | ⟨entry, member, served⟩
          · exact Or.inl same
          · exact Or.inr ⟨entry, List.mem_cons_of_mem _ member, served⟩
        · next largest isLargest =>
          split at counted
          · cases counted
          · rcases ih counted with same | ⟨entry, member, served⟩
            · rcases Nat.le_total count (largest + 1) with atMost | atLeast
              · rw [Nat.max_eq_right atMost] at same
                exact Or.inr ⟨(host, served), List.mem_cons_self, largest,
                  List.max?_mem isLargest, same⟩
              · exact Or.inl (same.trans (Nat.max_eq_left atLeast))
            · exact Or.inr ⟨entry, List.mem_cons_of_mem _ member, served⟩

theorem eq_referencedCount_of_countBuckets {seen : List String} {total : Nat}
    {assignment : List (Host × List Nat)} (counted : countBuckets seen 1 assignment = .ok total) :
    total = referencedCount assignment := by
  obtain ⟨atLeast, -, allCounted⟩ := countBuckets_eq_ok counted
  have reached := eq_or_mem_of_countBuckets counted
  rw [referencedCount]
  cases isLargest : (assignment.flatMap (·.2)).max? with
  | none =>
      rw [List.max?_eq_none_iff, List.flatMap_eq_nil_iff] at isLargest
      rcases reached with same | ⟨entry, member, bucket, isServed, -⟩
      · exact same
      · rw [isLargest entry member] at isServed
        cases isServed
  | some largest =>
      obtain ⟨isServed, bound⟩ := List.max?_eq_some_iff.mp isLargest
      obtain ⟨entry, member, isServed⟩ := List.mem_flatMap.mp isServed
      have largestCounted := allCounted entry member largest isServed
      change total = largest + 1
      rcases reached with same | ⟨entry, member, bucket, isServed, same⟩
      · omega
      · have bucketLe := bound bucket (List.mem_flatMap.mpr ⟨entry, member, isServed⟩)
        omega

theorem countBuckets_eq_ok_iff {assignment : List (Host × List Nat)} {total : Nat}
    (distinct : (assignment.map fun entry => entry.1.address).Nodup) :
    countBuckets [] 1 assignment = .ok total ↔
      StaysInLimit assignment ∧ total = referencedCount assignment := by
  constructor
  · intro counted
    obtain ⟨-, atMost, allCounted⟩ := countBuckets_eq_ok counted
    refine ⟨fun entry member bucket isServed => ?_, eq_referencedCount_of_countBuckets counted⟩
    exact Nat.lt_of_lt_of_le (allCounted entry member bucket isServed) atMost
  · rintro ⟨inLimit, rfl⟩
    cases counted : countBuckets [] 1 assignment with
    | ok total => rw [eq_referencedCount_of_countBuckets counted]
    | error error =>
        rw [countBuckets_eq_error_iff distinct (by simp)] at counted
        obtain ⟨largest, leaves, -⟩ := counted
        exact absurd inLimit leaves.not_staysInLimit

theorem not_leavesLimitAt_iff {assignment : List (Host × List Nat)}
    (distinct : (assignment.map fun entry => entry.1.address).Nodup) :
    (∀ largest, ¬ LeavesLimitAt assignment largest) ↔ StaysInLimit assignment := by
  constructor
  · intro noneLeaves
    cases counted : countBuckets [] 1 assignment with
    | ok total => exact ((countBuckets_eq_ok_iff distinct).mp counted).1
    | error error =>
        rw [countBuckets_eq_error_iff distinct (by simp)] at counted
        obtain ⟨largest, leaves, -⟩ := counted
        exact absurd leaves (noneLeaves largest)
  · exact fun inLimit largest leaves => leaves.not_staysInLimit inLimit

theorem servers_eq_nil_iff {assignment : List (Host × List Nat)} {bucket : Nat} :
    servers assignment bucket = [] ↔ ∀ entry ∈ assignment, bucket ∉ entry.2 := by
  rw [List.eq_nil_iff_forall_not_mem]
  simp only [mem_servers_iff, not_exists, not_and]
  constructor
  · intro noServer entry member isServed
    obtain ⟨index, found⟩ := List.mem_iff_getElem?.mp member
    exact noServer index entry.1 entry.2 found isServed
  · intro unserved index host served found
    exact unserved (host, served) (List.mem_of_getElem? found)

theorem findIdx?_enterAll_eq_some_iff {assignment : List (Host × List Nat)} {bucket : Nat} :
    (enterAll (referencedCount assignment) assignment).toList.findIdx? List.isEmpty = some bucket ↔
      IsFirstUnserved assignment bucket := by
  have membersAt : ∀ index (inside : index < (enterAll (referencedCount assignment)
      assignment).toList.length), (enterAll (referencedCount assignment) assignment).toList[index] =
        servers assignment index := by
    intro index inside
    have known : index < referencedCount assignment := by
      rwa [Array.length_toList, size_enterAll] at inside
    rw [Array.getElem_toList]
    exact (Array.getElem?_eq_some_iff.mp (getElem?_enterAll assignment known)).2
  rw [List.findIdx?_eq_some_iff_getElem]
  simp only [membersAt, List.isEmpty_iff, servers_eq_nil_iff]
  constructor
  · rintro ⟨inside, unserved, earlierServed⟩
    rw [Array.length_toList, size_enterAll] at inside
    refine ⟨inside, unserved, fun earlier earlierLt => ?_⟩
    simpa using earlierServed earlier earlierLt
  · rintro ⟨known, unserved, earlierServed⟩
    refine ⟨by rwa [Array.length_toList, size_enterAll], unserved, fun earlier earlierLt => ?_⟩
    simpa using earlierServed earlier earlierLt

theorem build_eq_error_iff {assignment : List (Host × List Nat)} {method : HashMethod}
    {error : SchedulerError} (notEmpty : assignment ≠ [])
    (distinct : (assignment.map fun entry => entry.1.address).Nodup) :
    build assignment method = .error error ↔
      (∃ largest, LeavesLimitAt assignment largest ∧ error = .invalidBucketCount (largest + 1)) ∨
        StaysInLimit assignment ∧
          ∃ bucket, IsFirstUnserved assignment bucket ∧ error = .emptyBucket bucket := by
  have notCounted : countBuckets [] 1 assignment = .error error ↔
      ∃ largest, LeavesLimitAt assignment largest ∧ error = .invalidBucketCount (largest + 1) :=
    countBuckets_eq_error_iff distinct (by simp)
  rw [build, if_neg (by simpa using notEmpty)]
  cases counted : countBuckets [] 1 assignment with
  | error refusal =>
      have notInLimit : ¬ StaysInLimit assignment := by
        intro inLimit
        rw [(countBuckets_eq_ok_iff distinct).mpr ⟨inLimit, rfl⟩] at counted
        cases counted
      rw [← notCounted, counted]
      simp [notInLimit]
  | ok total =>
      obtain ⟨inLimit, rfl⟩ := (countBuckets_eq_ok_iff distinct).mp counted
      have noneLeaves : ∀ largest, ¬ LeavesLimitAt assignment largest :=
        fun largest leaves => leaves.not_staysInLimit inLimit
      simp only [noneLeaves, false_and, exists_false, false_or, inLimit, true_and,
        ← findIdx?_enterAll_eq_some_iff]
      cases (enterAll (referencedCount assignment) assignment).toList.findIdx? List.isEmpty <;>
        simp [eq_comm]

end ManualRouter

end CacheRouting
