import CacheRouting.Proofs.Ranking.Order

/-!
# One report in one bucket

A bucket covers its hosts when its order lists each of them once and each has a
weight.  A report on one of them changes its weight and moves it; a report on any
other host changes nothing.  A bucket is a ranking when its weights are numbers
besides and its order does not increase in weight; finite reports keep it one.
-/

namespace CacheRouting

namespace BucketView

variable {W : Type}

/-- The order lists each of `hostCount` hosts once, and each has a weight. -/
structure Covers (view : BucketView W) (hostCount : Nat) : Prop where
  perm : view.order.Perm (List.range hostCount)
  length_weights : view.weights.length = hostCount

theorem Covers.mem_order_iff {view : BucketView W} {hostCount host : Nat}
    (covers : view.Covers hostCount) : host ∈ view.order ↔ host < hostCount := by
  rw [covers.perm.mem_iff, List.mem_range]

theorem Covers.nodup {view : BucketView W} {hostCount : Nat} (covers : view.Covers hostCount) :
    view.order.Nodup :=
  covers.perm.nodup_iff.mpr List.nodup_range

variable [Weight W]

theorem weightOf_setWeight_of_ne (view : BucketView W) {host other : Nat} (weight : W)
    (different : other ≠ host) :
    (view.setWeight host weight).weightOf other = view.weightOf other := by
  simp [weightOf, setWeight, List.getD_eq_getElem?_getD, List.getElem?_set_ne different.symm]

theorem weightOf_setWeight_self (view : BucketView W) {host : Nat} (weight : W)
    (known : host < view.weights.length) : (view.setWeight host weight).weightOf host = weight := by
  simp [weightOf, setWeight, List.getD_eq_getElem?_getD, known]

theorem weightOf_eq_getElem (view : BucketView W) {host : Nat}
    (known : host < view.weights.length) : view.weightOf host = view.weights[host] := by
  simp [weightOf, List.getD_eq_getElem?_getD, known]

def updated (view : BucketView W) (host : Nat) (amount : W) : BucketView W :=
  let changed := view.setWeight host (updatedWeight (view.weightOf host) amount)
  { changed with order := reorder changed.weightOf (view.weightOf host) host view.order }

theorem weightOf_updated_of_ne (view : BucketView W) {host other : Nat} (amount : W)
    (different : other ≠ host) :
    (view.updated host amount).weightOf other = view.weightOf other :=
  weightOf_setWeight_of_ne view _ different

theorem weightOf_updated_self (view : BucketView W) {host : Nat} (amount : W)
    (known : host < view.weights.length) :
    (view.updated host amount).weightOf host = updatedWeight (view.weightOf host) amount :=
  weightOf_setWeight_self view _ known

theorem Covers.report_of_lt {view : BucketView W} {hostCount host : Nat}
    (covers : view.Covers hostCount) (known : host < hostCount) (amount : W) :
    view.report host amount = (true, view.updated host amount) := by
  have inWeights : host < view.weights.length := covers.length_weights.symm ▸ known
  have inOrder : view.order.contains host = true :=
    List.contains_iff_mem.mpr (covers.mem_order_iff.mpr known)
  simp only [report, List.getElem?_eq_getElem inWeights, inOrder, if_true,
    ← weightOf_eq_getElem view inWeights, updated]

theorem Covers.report_of_not_lt {view : BucketView W} {hostCount host : Nat}
    (covers : view.Covers hostCount) (unknown : ¬ host < hostCount) (amount : W) :
    view.report host amount = (false, view) := by
  have outside : view.weights.length ≤ host := by
    rw [covers.length_weights]
    omega
  simp only [report, List.getElem?_eq_none outside]

theorem covers_initial (hostCount : Nat) : (initial hostCount : BucketView W).Covers hostCount where
  perm := List.Perm.refl _
  length_weights := List.length_replicate

theorem Covers.updated {view : BucketView W} {hostCount host : Nat}
    (covers : view.Covers hostCount) (known : host < hostCount) (amount : W) :
    (view.updated host amount).Covers hostCount where
  perm := (reorder_perm (covers.mem_order_iff.mpr known)).trans covers.perm
  length_weights := by
    rw [BucketView.updated]
    simp [setWeight, covers.length_weights]

theorem Covers.report {view : BucketView W} {hostCount : Nat} (covers : view.Covers hostCount)
    (host : Nat) (amount : W) : (view.report host amount).2.Covers hostCount := by
  by_cases known : host < hostCount
  · rw [covers.report_of_lt known]
    exact covers.updated known amount
  · rw [covers.report_of_not_lt known]
    exact covers

/-- All hosts in the order of their weights, which are numbers. -/
structure IsRanking (view : BucketView W) (hostCount : Nat) : Prop
    extends view.Covers hostCount where
  numbers : ∀ weight ∈ view.weights, Weight.IsNumber weight
  ranked : view.order.Pairwise (IsAtLeast view.weightOf)

variable [LawfulWeight W]

theorem rankedFrom_iff_pairwise (weightOf : Nat → W) (order : List Nat) :
    rankedFrom weightOf order = true ↔ order.Pairwise (IsAtLeast weightOf) := by
  induction order with
  | nil => simp [rankedFrom]
  | cons first rest ih =>
      cases rest with
      | nil => simp [rankedFrom]
      | cons second rest =>
          rw [rankedFrom, Bool.and_eq_true, ih]
          constructor
          · rintro ⟨atLeast, restRanked⟩
            refine List.pairwise_cons.mpr ⟨?_, restRanked⟩
            exact isAtLeast_of_head? restRanked (by simpa [IsAtLeast] using atLeast)
          · intro ranked
            obtain ⟨firstAtLeast, restRanked⟩ := List.pairwise_cons.mp ranked
            exact ⟨firstAtLeast second (by simp), restRanked⟩

theorem isRanked_iff_pairwise (view : BucketView W) :
    view.isRanked = true ↔ view.order.Pairwise (IsAtLeast view.weightOf) :=
  rankedFrom_iff_pairwise view.weightOf view.order

theorem weightOf_isNumber {view : BucketView W}
    (numbers : ∀ weight ∈ view.weights, Weight.IsNumber weight) (host : Nat) :
    Weight.IsNumber (view.weightOf host) := by
  by_cases known : host < view.weights.length
  · rw [weightOf_eq_getElem view known]
    exact numbers _ (List.getElem_mem known)
  · have outside : view.weights.length ≤ host := by omega
    simpa [weightOf, List.getD_eq_getElem?_getD, outside] using
      (LawfulWeight.zero_isNumber : Weight.IsNumber (Weight.zero : W))

theorem isRanking_initial (hostCount : Nat) :
    (initial hostCount : BucketView W).IsRanking hostCount where
  toCovers := covers_initial hostCount
  numbers := by
    intro weight member
    rw [List.eq_of_mem_replicate member]
    exact LawfulWeight.zero_isNumber
  ranked := by
    have allZero : ∀ host, (initial hostCount : BucketView W).weightOf host = Weight.zero := by
      intro host
      simp only [weightOf, initial, List.getD_eq_getElem?_getD, List.getElem?_replicate]
      split <;> rfl
    refine List.pairwise_of_forall_mem_list ?_
    intro first _ second _
    rw [IsAtLeast, allZero, allZero]
    exact LawfulWeight.zero_isNumber

theorem updatedWeight_isNumber {weight amount : W} (number : Weight.IsNumber weight)
    (finite : Weight.isFinite amount = true) : Weight.IsNumber (updatedWeight weight amount) := by
  unfold updatedWeight
  split
  · exact LawfulWeight.half_isNumber (LawfulWeight.add_isNumber number finite)
  · exact LawfulWeight.add_isNumber number finite

/-- Whatever the order of a ranking is sorted by, hosts of the same weight are still sorted
by it after a report. -/
theorem IsRanking.updated_pairwise {view : BucketView W} {hostCount host : Nat} {amount : W}
    (ranking : view.IsRanking hostCount) (known : host < hostCount)
    (number : Weight.IsNumber (updatedWeight (view.weightOf host) amount))
    {earlier : Nat → Nat → Prop} (sorted : view.order.Pairwise earlier) :
    (view.updated host amount).order.Pairwise
      (MayPrecede (view.updated host amount).weightOf earlier) := by
  have inWeights : host < view.weights.length := ranking.length_weights.symm ▸ known
  refine reorder_pairwise (ranking.mem_order_iff.mpr known) ranking.nodup ranking.ranked sorted
    (weightOf_isNumber ranking.numbers host) ?_ ?_
  · intro other
    by_cases same : other = host
    · rw [same, weightOf_updated_self view amount inWeights]
      exact number
    · rw [weightOf_updated_of_ne view amount same]
      exact weightOf_isNumber ranking.numbers other
  · intro other different
    exact weightOf_updated_of_ne view amount different

theorem IsRanking.updated {view : BucketView W} {hostCount host : Nat} {amount : W}
    (ranking : view.IsRanking hostCount) (known : host < hostCount)
    (number : Weight.IsNumber (updatedWeight (view.weightOf host) amount)) :
    (view.updated host amount).IsRanking hostCount where
  toCovers := ranking.toCovers.updated known amount
  numbers := by
    intro weight member
    rcases List.mem_or_eq_of_mem_set member with before | new
    · exact ranking.numbers weight before
    · exact new ▸ number
  ranked := by
    have sorted : view.order.Pairwise fun _ _ => True := List.pairwise_of_forall fun _ _ => trivial
    exact (ranking.updated_pairwise known number sorted).imp And.left

theorem IsRanking.report {view : BucketView W} {hostCount : Nat} (ranking : view.IsRanking hostCount)
    (host : Nat) {amount : W} (finite : Weight.isFinite amount = true) :
    (view.report host amount).2.IsRanking hostCount := by
  by_cases known : host < hostCount
  · rw [ranking.report_of_lt known]
    exact ranking.updated known
      (updatedWeight_isNumber (weightOf_isNumber ranking.numbers host) finite)
  · rw [ranking.report_of_not_lt known]
    exact ranking

end BucketView

end CacheRouting
