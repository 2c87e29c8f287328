import CacheRouting.Proofs.Ranking.Double
import CacheRouting.Proofs.Ranking.Table

/-!
# Ranking again is sorting

Moving one host comes to the same as sorting the whole order by the new weights,
the greatest first, with a sort that keeps the order of equal weights.  For an
order without repetitions such a sort has one result: an order ranked by weight
in which hosts of equal weight stand as they did.
-/

namespace CacheRouting

/-- Two members of a list without repetitions stand in one order only. -/
theorem not_pair_sublist_swap {order : List Nat} {first second : Nat} (nodup : order.Nodup)
    (sublist : [first, second].Sublist order) : ¬ [second, first].Sublist order := by
  intro swapped
  have increasing : order.Pairwise fun one other => order.idxOf one < order.idxOf other := by
    rw [List.pairwise_iff_getElem]
    intro i j iLt jLt iLtJ
    rwa [nodup.idxOf_getElem i iLt, nodup.idxOf_getElem j jLt]
  have forwards := increasing.forall_sublist sublist
  have backwards := increasing.forall_sublist swapped
  omega

/-- Two different members of a list stand in one order or the other. -/
theorem pair_sublist_or_swap {order : List Nat} {first second : Nat} (firstMember : first ∈ order)
    (secondMember : second ∈ order) (different : first ≠ second) :
    [first, second].Sublist order ∨ [second, first].Sublist order := by
  induction order with
  | nil => simp at firstMember
  | cons host rest ih =>
      rcases List.mem_cons.mp firstMember with firstIsHost | firstInRest
      · subst firstIsHost
        have secondInRest : second ∈ rest := by
          simpa [different.symm] using secondMember
        exact Or.inl ((List.singleton_sublist.mpr secondInRest).cons_cons first)
      · rcases List.mem_cons.mp secondMember with secondIsHost | secondInRest
        · subst secondIsHost
          exact Or.inr ((List.singleton_sublist.mpr firstInRest).cons_cons second)
        · rcases ih firstInRest secondInRest with forwards | backwards
          · exact Or.inl (forwards.cons host)
          · exact Or.inr (backwards.cons host)

namespace BucketView

variable {W : Type} [Weight W] [LawfulWeight W]

/-- The sort that ranking is compared with: by weight, the greatest first, hosts of equal
weight in the order in which they were. -/
def sortByWeight (weightOf : Nat → W) (order : List Nat) : List Nat :=
  order.mergeSort fun first second => Weight.atLeast (weightOf first) (weightOf second)

theorem atLeast_trans_of_hosts (weightOf : Nat → W) (first second third : Nat)
    (one : Weight.atLeast (weightOf first) (weightOf second) = true)
    (other : Weight.atLeast (weightOf second) (weightOf third) = true) :
    Weight.atLeast (weightOf first) (weightOf third) = true :=
  LawfulWeight.atLeast_trans one other

theorem atLeast_total_of_hosts {weightOf : Nat → W}
    (numbers : ∀ host, Weight.IsNumber (weightOf host)) (first second : Nat) :
    (Weight.atLeast (weightOf first) (weightOf second) ||
      Weight.atLeast (weightOf second) (weightOf first)) = true := by
  rw [Bool.or_eq_true]
  exact LawfulWeight.atLeast_or (numbers first) (numbers second)

theorem pair_sublist_sortByWeight {weightOf : Nat → W} {order : List Nat} {first second : Nat}
    (numbers : ∀ host, Weight.IsNumber (weightOf host))
    (atLeast : IsAtLeast weightOf first second) (before : [first, second].Sublist order) :
    [first, second].Sublist (sortByWeight weightOf order) :=
  List.pair_sublist_mergeSort (atLeast_trans_of_hosts weightOf) (atLeast_total_of_hosts numbers)
    atLeast before

/-- Sorting ranks by weight, and hosts of equal weight stand as before. -/
theorem sortByWeight_pairwise {weightOf : Nat → W} {order : List Nat}
    (numbers : ∀ host, Weight.IsNumber (weightOf host)) (nodup : order.Nodup) :
    (sortByWeight weightOf order).Pairwise
      (MayPrecede weightOf fun first second => [first, second].Sublist order) := by
  have perm : (sortByWeight weightOf order).Perm order := List.mergeSort_perm order _
  have sorted : (sortByWeight weightOf order).Pairwise (IsAtLeast weightOf) :=
    List.pairwise_mergeSort (atLeast_trans_of_hosts weightOf) (atLeast_total_of_hosts numbers) order
  have sortedNodup : (sortByWeight weightOf order).Nodup := perm.nodup_iff.mpr nodup
  refine List.pairwise_of_forall_sublist ?_
  intro first second sublist
  refine ⟨sorted.forall_sublist sublist, fun back => ?_⟩
  have firstMember : first ∈ order := perm.subset (sublist.subset (by simp))
  have secondMember : second ∈ order := perm.subset (sublist.subset (by simp))
  have different : first ≠ second := by
    rintro rfl
    exact not_pair_sublist_swap sortedNodup sublist sublist
  rcases pair_sublist_or_swap firstMember secondMember different with forwards | backwards
  · exact forwards
  · -- the sort would have kept the pair the other way around
    have kept := pair_sublist_sortByWeight numbers back backwards
    exact absurd kept (not_pair_sublist_swap sortedNodup sublist)

/-- A ranked order in which hosts of equal weight stand as before is the sorted one. -/
theorem eq_sortByWeight {weightOf : Nat → W} {order ranked : List Nat}
    (numbers : ∀ host, Weight.IsNumber (weightOf host)) (nodup : order.Nodup)
    (perm : ranked.Perm order)
    (rankedPairwise : ranked.Pairwise
      (MayPrecede weightOf fun first second => [first, second].Sublist order)) :
    ranked = sortByWeight weightOf order := by
  refine List.Perm.eq_of_pairwise ?_ rankedPairwise (sortByWeight_pairwise numbers nodup)
    (perm.trans (List.mergeSort_perm order _).symm)
  intro first second _ _ firstPrecedes secondPrecedes
  have forwards := firstPrecedes.2 secondPrecedes.1
  have backwards := secondPrecedes.2 firstPrecedes.1
  exact absurd backwards (not_pair_sublist_swap nodup forwards)

/-- Counting a report on a ranking sorts its order by the new weights. -/
theorem IsRanking.order_updated {view : BucketView W} {hostCount host : Nat} {amount : W}
    (ranking : view.IsRanking hostCount) (known : host < hostCount)
    (number : Weight.IsNumber (updatedWeight (view.weightOf host) amount)) :
    (view.updated host amount).order =
      sortByWeight (view.updated host amount).weightOf view.order := by
  have after := ranking.updated known number
  refine eq_sortByWeight (weightOf_isNumber after.numbers) ranking.nodup
    (after.perm.trans ranking.perm.symm) ?_
  exact ranking.updated_pairwise known number (List.pairwise_of_forall_sublist id)

/-- Hosts of the same weight stand after a report as they did before. -/
theorem IsRanking.pair_sublist_updated_iff {view : BucketView W} {hostCount host : Nat} {amount : W}
    (ranking : view.IsRanking hostCount) (known : host < hostCount)
    (number : Weight.IsNumber (updatedWeight (view.weightOf host) amount)) {first second : Nat}
    (atLeast : IsAtLeast (view.updated host amount).weightOf first second)
    (atMost : IsAtLeast (view.updated host amount).weightOf second first) :
    [first, second].Sublist (view.updated host amount).order ↔
      [first, second].Sublist view.order := by
  have after := ranking.updated known number
  have numbers := weightOf_isNumber after.numbers
  rw [ranking.order_updated known number]
  constructor
  · intro sublist
    exact ((sortByWeight_pairwise numbers ranking.nodup).forall_sublist sublist).2 atMost
  · exact pair_sublist_sortByWeight numbers atLeast

end BucketView

namespace RoutingTable

open BucketView (updatedWeight)

/-- Counting a report on a ranked bucket sorts the bucket by the new weights.  Hosts of
equal weight keep their order, and so do all hosts but the one the report is on. -/
theorem apply_sorts {table : RoutingTable Float} {item : Feedback Float}
    {view : BucketView Float} (has : table.view? item.bucket = some view)
    (perm : view.order.Perm (List.range view.weights.length))
    (numbers : ∀ weight ∈ view.weights, weight.isNaN = false) (ranked : view.isRanked = true)
    (known : item.host < view.weights.length)
    (number : (updatedWeight (view.weightOf item.host) item.amount).isNaN = false) :
    (table.apply item).1 = true ∧
      ∃ next, (table.apply item).2.view? item.bucket = some next ∧
        next.weights =
          view.weights.set item.host (updatedWeight (view.weightOf item.host) item.amount) ∧
        next.order = view.order.mergeSort
          (fun first second => next.weightOf second ≤ next.weightOf first) ∧
        (∀ first second, next.weightOf first == next.weightOf second →
          ([first, second].Sublist next.order ↔ [first, second].Sublist view.order)) ∧
        next.order.filter (· != item.host) = view.order.filter (· != item.host) := by
  have ranking : view.IsRanking view.weights.length :=
    { perm := perm
      length_weights := rfl
      numbers := fun weight member => (Double.isNumber_iff weight).mpr (numbers weight member)
      ranked := (BucketView.isRanked_iff_pairwise view).mp ranked }
  have newNumber := (Double.isNumber_iff _).mpr number
  have reported := ranking.report_of_lt known item.amount
  refine ⟨?_, view.updated item.host item.amount, ?_, rfl, ?_, ?_, ?_⟩
  · rw [apply_of_view? has, reported]
  · rw [view?_apply_self, has, Option.map_some, reported]
  · exact ranking.order_updated known newNumber
  · intro first second equal
    obtain ⟨atLeast, atMost⟩ := Double.le_of_beq equal
    exact ranking.pair_sublist_updated_iff known newNumber (decide_eq_true atMost)
      (decide_eq_true atLeast)
  · exact BucketView.reorder_filter_ne (ranking.mem_order_iff.mpr known)

/-- A host that rises to the weight of another stops behind it. -/
theorem apply_sorts_up_to_tie :
    ∃ next : BucketView Float,
      ((⟨#[⟨[1, 0, 2], [2, 6, 1]⟩]⟩ : RoutingTable Float).apply ⟨2, 0, 11⟩).2.view? 0 = some next ∧
        next.order = [1, 2, 0] ∧
        next.order = [1, 0, 2].mergeSort
          (fun first second => next.weightOf second ≤ next.weightOf first) := by
  obtain ⟨-, next, has, -, sorted, -, -⟩ :=
    @apply_sorts ⟨#[⟨[1, 0, 2], [2, 6, 1]⟩]⟩ ⟨2, 0, 11⟩ ⟨[1, 0, 2], [2, 6, 1]⟩ rfl (by decide)
      (by decide) (by decide) (by decide) (by decide)
  refine ⟨next, has, ?_, sorted⟩
  rw [← Option.some.inj has]
  decide

end RoutingTable

end CacheRouting
