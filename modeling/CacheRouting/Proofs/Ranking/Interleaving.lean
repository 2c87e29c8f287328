import CacheRouting.Proofs.Ranking.StableSort

/-!
# Reports in another order

The weight of a host in a bucket comes from the reports that name both, taken in
their order, and from no others.  Since a bucket is ranked by its weights after
every report, two sequences that agree on those reports for every host leave the
same weights and the same order, but for hosts that weigh the same.
-/

namespace CacheRouting

namespace BucketView

variable {W : Type} [Weight W]

def weightAfter (weight : W) (amounts : List W) : W :=
  amounts.foldl updatedWeight weight

theorem Covers.weightOf_report {view : BucketView W} {hostCount : Nat}
    (covers : view.Covers hostCount) (host : Nat) (amount : W) {other : Nat}
    (known : other < hostCount) :
    (view.report host amount).2.weightOf other =
      if host = other then updatedWeight (view.weightOf other) amount
      else view.weightOf other := by
  split
  · next same =>
    subst same
    rw [covers.report_of_lt known]
    exact weightOf_updated_self view amount (covers.length_weights.symm ▸ known)
  · next different =>
    by_cases hostKnown : host < hostCount
    · rw [covers.report_of_lt hostKnown]
      exact weightOf_updated_of_ne view amount (Ne.symm different)
    · rw [covers.report_of_not_lt hostKnown]

theorem Covers.weights_eq {first second : BucketView W} {hostCount : Nat}
    (covers : first.Covers hostCount) (otherCovers : second.Covers hostCount)
    (same : ∀ host < hostCount, first.weightOf host = second.weightOf host) :
    first.weights = second.weights := by
  apply List.ext_getElem
  · rw [covers.length_weights, otherCovers.length_weights]
  · intro host inFirst inSecond
    rw [← weightOf_eq_getElem first inFirst, ← weightOf_eq_getElem second inSecond]
    exact same host (covers.length_weights ▸ inFirst)

section Orders

variable {weightOf : Nat → W} {first second : List Nat}

/-- Two orders that are ranked by the same weights agree on hosts of which one is better. -/
theorem pair_sublist_of_ranked (perm : first.Perm second) (nodup : first.Nodup)
    (ranked : first.Pairwise (IsAtLeast weightOf)) (otherRanked : second.Pairwise (IsAtLeast weightOf))
    {host other : Nat} (notSame : ¬ (IsAtLeast weightOf host other ∧ IsAtLeast weightOf other host))
    (before : [host, other].Sublist first) : [host, other].Sublist second := by
  have different : host ≠ other := by
    rintro rfl
    exact not_pair_sublist_swap nodup before before
  have member : host ∈ second := perm.subset (before.subset (by simp))
  have otherMember : other ∈ second := perm.subset (before.subset (by simp))
  rcases pair_sublist_or_swap member otherMember different with forwards | backwards
  · exact forwards
  · exact absurd ⟨ranked.forall_sublist before, otherRanked.forall_sublist backwards⟩ notSame

theorem eq_of_ranked (perm : first.Perm second)
    (ranked : first.Pairwise (IsAtLeast weightOf)) (otherRanked : second.Pairwise (IsAtLeast weightOf))
    (distinct : ∀ host ∈ first, ∀ other ∈ first,
      IsAtLeast weightOf host other → IsAtLeast weightOf other host → host = other) :
    first = second := by
  apply List.Perm.eq_of_pairwise _ ranked otherRanked perm
  intro host other member otherMember atLeast atMost
  exact distinct host member other (perm.symm.subset otherMember) atLeast atMost

theorem beq_of_isAtLeast {weightOf : Nat → Float} {host other : Nat}
    (atLeast : IsAtLeast weightOf host other) (atMost : IsAtLeast weightOf other host) :
    (weightOf host == weightOf other) = true :=
  Double.beq_of_le (of_decide_eq_true atMost) (of_decide_eq_true atLeast)

end Orders

end BucketView

namespace RoutingTable

open BucketView (weightAfter)

def reportsNaming {W : Type} (bucket host : Nat) (items : List (Feedback W)) :
    List (Feedback W) :=
  items.filter fun item => item.bucket == bucket && item.host == host

variable {W : Type} [Weight W]

theorem weightOf_apply {table : RoutingTable W} {hostCount bucketCount bucket host : Nat}
    (covers : table.Covers hostCount bucketCount) {view : BucketView W}
    (has : table.view? bucket = some view) (known : host < hostCount) (item : Feedback W) :
    ∃ next, (table.apply item).2.view? bucket = some next ∧
      next.weightOf host =
        weightAfter (view.weightOf host) ((reportsNaming bucket host [item]).map (·.amount)) := by
  by_cases own : item.bucket = bucket
  · subst own
    refine ⟨_, by rw [view?_apply_self, has, Option.map_some], ?_⟩
    rw [(covers.of_view? has).weightOf_report item.host item.amount known]
    by_cases named : item.host = host <;> simp [reportsNaming, weightAfter, named]
  · refine ⟨view, by rw [view?_apply_of_ne table (Ne.symm own), has], ?_⟩
    simp [reportsNaming, weightAfter, own]

/-- The weight of a host in a bucket comes from the reports that name them. -/
theorem Covers.weightOf_applyAll {table : RoutingTable W} {hostCount bucketCount bucket host : Nat}
    (covers : table.Covers hostCount bucketCount) {view : BucketView W}
    (has : table.view? bucket = some view) (known : host < hostCount)
    (items : List (Feedback W)) :
    ∃ reached, (table.applyAll items).view? bucket = some reached ∧
      reached.weightOf host =
        weightAfter (view.weightOf host) ((reportsNaming bucket host items).map (·.amount)) := by
  induction items generalizing table view with
  | nil => exact ⟨view, has, rfl⟩
  | cons item items ih =>
      obtain ⟨next, hasNext, nextWeight⟩ := weightOf_apply covers has known item
      obtain ⟨reached, hasReached, weight⟩ := ih (covers.apply item) hasNext
      refine ⟨reached, hasReached, ?_⟩
      rw [weight, nextWeight]
      simp only [weightAfter, ← List.foldl_append, ← List.map_append]
      congr 2
      exact (List.filter_append (p := _) [item] items).symm

theorem isRanking_applyAll [LawfulWeight W] (hostCount : Nat) {bucketCount bucket : Nat}
    {items : List (Feedback W)} (finite : ∀ item ∈ items, Weight.isFinite item.amount = true)
    (known : bucket < bucketCount) :
    ∃ view, ((initial hostCount bucketCount).applyAll items).view? bucket = some view ∧
      view.IsRanking hostCount := by
  have held : ((initial hostCount bucketCount).applyAll items).Holds
      (BucketView.IsRanking · hostCount) bucketCount := by
    apply Holds.applyAll (holds_initial bucketCount (BucketView.isRanking_initial hostCount))
    intro item member view ranking
    exact ranking.report item.host (finite item member)
  exact held.exists_view? known

/-- Sequences that agree on the reports naming a bucket leave the same weights in it. -/
theorem weights_eq_of_reportsNaming_eq {hostCount bucketCount bucket : Nat}
    (known : bucket < bucketCount) {first second : List (Feedback W)}
    (same : ∀ host < hostCount,
      reportsNaming bucket host first = reportsNaming bucket host second)
    {one other : BucketView W} (covers : one.Covers hostCount) (otherCovers : other.Covers hostCount)
    (hasOne : ((initial hostCount bucketCount).applyAll first).view? bucket = some one)
    (hasOther : ((initial hostCount bucketCount).applyAll second).view? bucket = some other) :
    one.weights = other.weights := by
  have start : (initial hostCount bucketCount : RoutingTable W).Covers hostCount bucketCount :=
    covers_initial hostCount bucketCount
  apply covers.weights_eq otherCovers
  intro host hostKnown
  obtain ⟨reached, hasReached, weight⟩ :=
    start.weightOf_applyAll (view?_initial known) hostKnown first
  obtain ⟨otherReached, otherHas, otherWeight⟩ :=
    start.weightOf_applyAll (view?_initial known) hostKnown second
  cases hasOne.symm.trans hasReached
  cases hasOther.symm.trans otherHas
  rw [weight, otherWeight, same host hostKnown]

/-- Sequences of finite reports that agree on the reports naming each bucket and host leave
the same weights, and orders that differ only in how hosts of equal weight stand. -/
theorem applyAll_is_order_independent {hostCount bucketCount : Nat}
    {first second : List (Feedback Float)}
    (finite : ∀ item ∈ first ++ second, item.amount.isFinite = true)
    (same : ∀ bucket < bucketCount, ∀ host < hostCount,
      reportsNaming bucket host first = reportsNaming bucket host second)
    {bucket : Nat} (known : bucket < bucketCount) :
    ∃ one other,
      ((initial hostCount bucketCount).applyAll first).view? bucket = some one ∧
      ((initial hostCount bucketCount).applyAll second).view? bucket = some other ∧
      one.weights.length = hostCount ∧ one.weights = other.weights ∧
      one.order.Perm (List.range hostCount) ∧ one.order.Perm other.order ∧
      (∀ left right, (one.weightOf left == one.weightOf right) = false →
        ([left, right].Sublist one.order ↔ [left, right].Sublist other.order)) ∧
      ((∀ left < hostCount, ∀ right < hostCount, left ≠ right →
          (one.weightOf left == one.weightOf right) = false) →
        one.order = other.order) := by
  have finiteFirst : ∀ item ∈ first, item.amount.isFinite = true :=
    fun item member => finite item (List.mem_append_left second member)
  have finiteSecond : ∀ item ∈ second, item.amount.isFinite = true :=
    fun item member => finite item (List.mem_append_right first member)
  obtain ⟨one, hasOne, ranking⟩ := isRanking_applyAll hostCount finiteFirst known
  obtain ⟨other, hasOther, otherRanking⟩ := isRanking_applyAll hostCount finiteSecond known
  have weightsEq : one.weights = other.weights :=
    weights_eq_of_reportsNaming_eq known (same bucket known) ranking.toCovers otherRanking.toCovers
      hasOne hasOther
  have weightOfEq : other.weightOf = one.weightOf := by
    funext host
    rw [BucketView.weightOf, BucketView.weightOf, weightsEq]
  have perm : one.order.Perm other.order := ranking.perm.trans otherRanking.perm.symm
  have otherRanked := otherRanking.ranked
  rw [weightOfEq] at otherRanked
  refine ⟨one, other, hasOne, hasOther, ranking.length_weights, weightsEq, ranking.perm, perm,
    ?_, ?_⟩
  · intro left right different
    have notSame : ¬ (BucketView.IsAtLeast one.weightOf left right ∧
        BucketView.IsAtLeast one.weightOf right left) := by
      rintro ⟨atLeast, atMost⟩
      exact Bool.false_ne_true (different.symm.trans (BucketView.beq_of_isAtLeast atLeast atMost))
    exact ⟨BucketView.pair_sublist_of_ranked perm ranking.nodup ranking.ranked otherRanked notSame,
      BucketView.pair_sublist_of_ranked perm.symm otherRanking.nodup otherRanked ranking.ranked
        notSame⟩
  · intro distinct
    apply BucketView.eq_of_ranked perm ranking.ranked otherRanked
    intro left member right otherMember atLeast atMost
    by_contra different
    have unequal := distinct left (ranking.mem_order_iff.mp member) right
      (ranking.mem_order_iff.mp otherMember) different
    exact Bool.false_ne_true (unequal.symm.trans (BucketView.beq_of_isAtLeast atLeast atMost))

/-- Two hosts of the same weight stand in the order in which they reached it. -/
theorem applyAll_is_order_independent_up_to_tie :
    ∃ one other : BucketView Float,
      ((initial 2 1).applyAll [⟨0, 0, 4⟩, ⟨1, 0, 4⟩]).view? 0 = some one ∧
      ((initial 2 1).applyAll [⟨1, 0, 4⟩, ⟨0, 0, 4⟩]).view? 0 = some other ∧
      one.weights = other.weights ∧ one.order = [0, 1] ∧ other.order = [1, 0] := by
  obtain ⟨one, other, hasOne, hasOther, -, weightsEq, -⟩ :=
    @applyAll_is_order_independent 2 1 [⟨0, 0, 4⟩, ⟨1, 0, 4⟩] [⟨1, 0, 4⟩, ⟨0, 0, 4⟩]
      (by decide) (by decide) 0 (by decide)
  refine ⟨one, other, hasOne, hasOther, weightsEq, ?_, ?_⟩
  · rw [← Option.some.inj hasOne]
    decide
  · rw [← Option.some.inj hasOther]
    decide

end RoutingTable

end CacheRouting
