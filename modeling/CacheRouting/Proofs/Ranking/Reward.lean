import CacheRouting.Proofs.Ranking.Average
import CacheRouting.Proofs.Ranking.Table

/-!
# Rewards and penalties

A penalty never raises the weight of a host and never moves the host forward.  A
reward is averaged with the weight: one that is no less than the weight neither
lowers the weight nor moves the host backward, but a smaller one can do both.  A
reward that is given again and again to a host that starts below it is always of
the first kind.
-/

namespace CacheRouting

namespace BucketView

section Places

variable {W : Type} [Weight W] {weightOf : Nat → W} {old : W} {host : Nat} {order : List Nat}

theorem notMem_ahead (host : Nat) (order : List Nat) : host ∉ ahead host order := by
  intro member
  have different := List.all_eq_true.mp List.all_takeWhile host member
  simp at different

theorem idxOf_append_cons {front : List Nat} (notInFront : host ∉ front) (back : List Nat) :
    (front ++ host :: back).idxOf host = front.length := by
  rw [List.idxOf_append_of_notMem notInFront, List.idxOf_cons_self, Nat.add_zero]

theorem idxOf_eq_length_ahead (member : host ∈ order) :
    order.idxOf host = (ahead host order).length := by
  conv_lhs => rw [← ahead_append_behind member]
  exact idxOf_append_cons (notMem_ahead host order) _

/-- A host whose weight has not risen does not move forward. -/
theorem le_idxOf_reorder (member : host ∈ order)
    (notRaised : ¬ Weight.below old (weightOf host) = true) :
    order.idxOf host ≤ (reorder weightOf old host order).idxOf host := by
  obtain ⟨passed, kept, -, moved, -, -⟩ :=
    exists_moveBackward weightOf host (ahead host order) (behind host order)
  rw [idxOf_eq_length_ahead member, reorder, if_neg notRaised, moved, List.append_assoc,
    List.idxOf_append_of_notMem (notMem_ahead host order)]
  exact Nat.le_add_right _ _

/-- A host that is not below any behind it does not move backward. -/
theorem idxOf_reorder_le (member : host ∈ order)
    (notBelow : ∀ other ∈ behind host order,
      ¬ Weight.below (weightOf host) (weightOf other) = true) :
    (reorder weightOf old host order).idxOf host ≤ order.idxOf host := by
  have notInAhead := notMem_ahead host order
  rw [idxOf_eq_length_ahead member, reorder]
  split
  · obtain ⟨kept, passed, split, moved, -, -⟩ :=
      exists_moveForward weightOf host (ahead host order) (behind host order)
    rw [← split] at notInAhead
    rw [moved, ← split, List.length_append,
      idxOf_append_cons fun inKept => notInAhead (List.mem_append_left _ inKept)]
    exact Nat.le_add_right _ _
  · obtain ⟨passed, kept, split, moved, passedAbove, -⟩ :=
      exists_moveBackward weightOf host (ahead host order) (behind host order)
    have nonePassed : passed = [] := by
      refine List.eq_nil_iff_forall_not_mem.mpr fun other inPassed => ?_
      exact notBelow other (split ▸ List.mem_append_left _ inPassed) (passedAbove other inPassed)
    rw [moved, nonePassed, List.append_nil, idxOf_append_cons notInAhead]

end Places

section Weights

variable {weight amount : Float}

theorem updatedWeight_of_neg (negative : amount < 0) :
    updatedWeight weight amount = weight + amount := by
  refine if_neg ?_
  simp only [Weight.atLeast, Weight.zero, decide_eq_true_eq]
  intro notNegative
  exact absurd ((Double.lt_iff _ _).mp negative).2 (not_lt.mpr ((Double.le_iff _ _).mp notNegative).2)

theorem updatedWeight_of_pos (positive : 0 < amount) :
    updatedWeight weight amount = (weight + amount) / 2 := by
  refine if_pos ?_
  obtain ⟨defined, placed⟩ := (Double.lt_iff _ _).mp positive
  exact decide_eq_true ((Double.le_iff _ _).mpr ⟨defined, placed.le⟩)

/-- After a finite report a weight is a number if it was one before. -/
theorem isNaN_updatedWeight (finite : amount.isFinite = true) :
    (updatedWeight weight amount).isNaN = weight.isNaN := by
  by_cases defined : weight.isNaN = false
  · rw [defined]
    have number := (Double.isNumber_iff weight).mpr defined
    exact (Double.isNumber_iff _).mp (updatedWeight_isNumber number finite)
  · have notFinite : weight.isFinite = false := by
      by_contra isFinite
      exact defined (Double.isNaN_eq_false_of_isFinite (Bool.eq_true_of_not_eq_false isFinite))
    change (updatedWeight weight amount).toModel.unpack.isNaN = weight.toModel.unpack.isNaN
    rw [updatedWeight]
    split
    · exact congrArg _ (Double.unpack_average_of_not_isFinite notFinite finite)
    · exact congrArg _ (Double.unpack_add_of_not_isFinite notFinite finite)

theorem not_lt_updatedWeight (finite : amount.isFinite = true) (negative : amount < 0) :
    ¬ weight < updatedWeight weight amount := by
  rw [updatedWeight_of_neg negative]
  exact Double.not_lt_add finite negative

/-- A positive amount that is no less than the weight, if the weight is finite. -/
def IsRaise (weight amount : Float) : Prop :=
  0 < amount ∧ (weight.isFinite = true → weight ≤ amount)

theorem IsRaise.not_updatedWeight_lt (raise : IsRaise weight amount)
    (finite : amount.isFinite = true) : ¬ updatedWeight weight amount < weight := by
  rw [updatedWeight_of_pos raise.1]
  exact Double.not_average_lt finite raise.1 raise.2

/-- What raises a weight also raises the result. -/
theorem IsRaise.updatedWeight (raise : IsRaise weight amount) (finite : amount.isFinite = true) :
    IsRaise (updatedWeight weight amount) amount := by
  rw [updatedWeight_of_pos raise.1]
  exact ⟨raise.1, Double.average_le_amount finite raise.2⟩

/-- A reward lowers no weight below the amount. -/
theorem not_updatedWeight_lt_both (finite : amount.isFinite = true) (positive : 0 < amount) :
    ¬ (updatedWeight weight amount < weight ∧ updatedWeight weight amount < amount) := by
  rintro ⟨lowered, belowAmount⟩
  by_cases raise : weight.isFinite = true → weight ≤ amount
  · exact IsRaise.not_updatedWeight_lt ⟨positive, raise⟩ finite lowered
  · obtain ⟨weightFinite, notAtMost⟩ := Classical.not_imp.mp raise
    have below : amount ≤ weight := by
      rw [Double.le_iff_value_le finite weightFinite]
      rw [Double.le_iff_value_le weightFinite finite] at notAtMost
      exact (not_le.mp notAtMost).le
    rw [updatedWeight_of_pos positive] at belowAmount
    exact Double.not_average_lt_amount finite positive weightFinite below belowAmount

end Weights

section Report

variable {view : BucketView Float} {hostCount host : Nat} {amount : Float}

/-- In a ranked order a host whose weight is not lowered is not below any host behind it. -/
theorem not_below_of_mem_behind {weightBefore weightOf : Nat → Float} {order : List Nat}
    (member : host ∈ order) (nodup : order.Nodup) (ranked : order.Pairwise (IsAtLeast weightBefore))
    (unchanged : ∀ other, other ≠ host → weightOf other = weightBefore other)
    (notLowered : ¬ weightOf host < weightBefore host) :
    ∀ other ∈ behind host order, ¬ Weight.below (weightOf host) (weightOf other) = true := by
  intro other inBehind
  rw [← ahead_append_behind member] at nodup ranked
  have different := ne_of_mem_others nodup other (List.mem_append_right _ inBehind)
  have atLeast := (List.pairwise_cons.mp (List.pairwise_append.mp ranked).2.1).1 other inBehind
  simp only [IsAtLeast, Weight.atLeast, Weight.below, decide_eq_true_eq] at atLeast ⊢
  rw [unchanged other different]
  intro below
  obtain ⟨⟨defined, -⟩, placed⟩ := (Double.lt_iff _ _).mp below
  obtain ⟨⟨-, beforeDefined⟩, placedBefore⟩ := (Double.le_iff _ _).mp atLeast
  exact notLowered ((Double.lt_iff _ _).mpr ⟨⟨defined, beforeDefined⟩, placed.trans_le placedBefore⟩)

theorem Covers.le_idxOf_updated (covers : view.Covers hostCount) (known : host < hostCount)
    (notRaised : ¬ view.weightOf host < updatedWeight (view.weightOf host) amount) :
    view.order.idxOf host ≤ (view.updated host amount).order.idxOf host := by
  have inWeights : host < view.weights.length := covers.length_weights.symm ▸ known
  refine le_idxOf_reorder (covers.mem_order_iff.mpr known) ?_
  rw [weightOf_setWeight_self view _ inWeights]
  simpa only [Weight.below, decide_eq_true_eq] using notRaised

theorem Covers.idxOf_updated_le (covers : view.Covers hostCount) (known : host < hostCount)
    (ranked : view.isRanked = true)
    (notLowered : ¬ updatedWeight (view.weightOf host) amount < view.weightOf host) :
    (view.updated host amount).order.idxOf host ≤ view.order.idxOf host := by
  have inWeights : host < view.weights.length := covers.length_weights.symm ▸ known
  have member := covers.mem_order_iff.mpr known
  refine idxOf_reorder_le member (not_below_of_mem_behind member covers.nodup
    ((isRanked_iff_pairwise view).mp ranked) ?_ ?_)
  · intro other different
    exact weightOf_setWeight_of_ne view _ different
  · rwa [weightOf_setWeight_self view _ inWeights]

end Report

end BucketView

namespace RoutingTable

open BucketView

/-- On a ranked bucket that is reached by any reports, a further finite one on a host that is
negative never raises the weight of the host and never moves it forward.  A positive one never
leaves the weight below both what it was and the amount, and moves the host backward only if it
lowers the weight.  It never does so if it is no less than the weight, and then it is no less than
the weight afterwards. -/
theorem apply_moves_by_sign {hostCount bucketCount : Nat} {items : List (Feedback Float)}
    {table : RoutingTable Float} (reached : (initial hostCount bucketCount).applyAll items = table)
    {item : Feedback Float} {before : BucketView Float}
    (has : table.view? item.bucket = some before) (ranked : before.isRanked = true)
    (known : item.host ∈ before.order) (finite : item.amount.isFinite = true) :
    (table.apply item).1 = true ∧ ∃ after, (table.apply item).2.view? item.bucket = some after ∧
      (after.weightOf item.host).isNaN = (before.weightOf item.host).isNaN ∧
      (item.amount < 0 →
        ¬ before.weightOf item.host < after.weightOf item.host ∧
        before.order.idxOf item.host ≤ after.order.idxOf item.host) ∧
      (0 < item.amount →
        ¬ (after.weightOf item.host < before.weightOf item.host ∧
          after.weightOf item.host < item.amount) ∧
        (¬ after.weightOf item.host < before.weightOf item.host →
          after.order.idxOf item.host ≤ before.order.idxOf item.host) ∧
        (IsRaise (before.weightOf item.host) item.amount →
          ¬ after.weightOf item.host < before.weightOf item.host ∧
          after.order.idxOf item.host ≤ before.order.idxOf item.host ∧
          IsRaise (after.weightOf item.host) item.amount)) := by
  have covers : table.Covers hostCount bucketCount :=
    reached ▸ (covers_initial hostCount bucketCount).applyAll items
  have viewCovers := covers.of_view? has
  have inRange : item.host < hostCount := viewCovers.mem_order_iff.mp known
  have inWeights : item.host < before.weights.length := viewCovers.length_weights.symm ▸ inRange
  have applied := apply_of_view? has
  rw [viewCovers.report_of_lt inRange] at applied
  rw [applied]
  refine ⟨rfl, _, view?_store_self _ (lt_bucketCount_of_view? has), ?_⟩
  rw [weightOf_updated_self before item.amount inWeights]
  refine ⟨isNaN_updatedWeight finite, ?_, ?_⟩
  · intro negative
    have notRaised : ¬ before.weightOf item.host < updatedWeight (before.weightOf item.host)
        item.amount := not_lt_updatedWeight finite negative
    exact ⟨notRaised, viewCovers.le_idxOf_updated inRange notRaised⟩
  · intro positive
    refine ⟨not_updatedWeight_lt_both finite positive, viewCovers.idxOf_updated_le inRange ranked, ?_⟩
    intro raise
    have notLowered := raise.not_updatedWeight_lt finite
    exact ⟨notLowered, viewCovers.idxOf_updated_le inRange ranked notLowered,
      raise.updatedWeight finite⟩

/-- A penalty and a reward for the second of two hosts. -/
theorem apply_moves_by_sign_of_second_host :
    ∃ table : RoutingTable Float, (initial 2 1).applyAll [⟨0, 0, 8⟩, ⟨1, 0, 6⟩] = table ∧
      table.view? 0 = some ⟨[0, 1], [4, 3]⟩ ∧
      (∃ after, (table.apply ⟨1, 0, -2⟩).2.view? 0 = some after ∧ ¬ 3 < after.weightOf 1) ∧
      ∃ after, (table.apply ⟨1, 0, 10⟩).2.view? 0 = some after ∧ after.order.idxOf 1 ≤ 1 := by
  have has : ((initial 2 1).applyAll [⟨0, 0, 8⟩, ⟨1, 0, 6⟩] : RoutingTable Float).view? 0 =
      some ⟨[0, 1], [4, 3]⟩ := rfl
  have ranked : (⟨[0, 1], [4, 3]⟩ : BucketView Float).isRanked = true := by decide
  obtain ⟨-, penalized, hasPenalized, -, penalty, -⟩ :=
    @apply_moves_by_sign 2 1 _ _ rfl ⟨1, 0, -2⟩ _ has ranked (by decide) (by decide)
  obtain ⟨-, rewarded, hasRewarded, -, -, reward⟩ :=
    @apply_moves_by_sign 2 1 _ _ rfl ⟨1, 0, 10⟩ _ has ranked (by decide) (by decide)
  refine ⟨_, rfl, has, ⟨penalized, hasPenalized, (penalty (by decide)).1⟩, rewarded, hasRewarded, ?_⟩
  exact ((reward (by decide)).2.2 ⟨by decide, fun _ => by decide⟩).2.1

/-- A reward of 1 for the first host, of weight 4, lowers its weight and moves it behind the
second, of weight 3. -/
theorem small_reward_lowers_and_demotes :
    ∃ table : RoutingTable Float, (initial 2 1).applyAll [⟨0, 0, 8⟩, ⟨1, 0, 6⟩] = table ∧
      table.view? 0 = some ⟨[0, 1], [4, 3]⟩ ∧
      (⟨[0, 1], [4, 3]⟩ : BucketView Float).isRanked = true ∧
      (0 : Float) < 1 ∧ (1 : Float).isFinite = true ∧
      ∃ after, (table.apply ⟨0, 0, 1⟩).2.view? 0 = some after ∧
        after.weightOf 0 < 4 ∧ after.order = [1, 0] := by
  refine ⟨_, rfl, rfl, by decide, by decide, by decide, _, rfl, by decide, by decide⟩

end RoutingTable

end CacheRouting
