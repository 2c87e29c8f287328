import CacheRouting.Proofs.Ranking.Weight
import CacheRouting.Ranking.View

/-!
# Moving one host

Moving a host takes it out of the order and puts it back at another place, so all
other hosts keep their order.  When the order was ranked before the weight of the
host changed, the new place is the one at which the order is ranked again, and
the host passes no host of the same weight.
-/

namespace CacheRouting

namespace BucketView

variable {W : Type} [Weight W]

theorem ahead_append_behind {host : Nat} {order : List Nat} (member : host ∈ order) :
    ahead host order ++ host :: behind host order = order := by
  induction order with
  | nil => simp at member
  | cons first rest ih =>
      by_cases same : first = host
      · simp [ahead, behind, same]
      · have inRest : host ∈ rest := by
          rcases List.mem_cons.mp member with equal | inRest
          · exact absurd equal.symm same
          · exact inRest
        simpa [ahead, behind, same] using ih inRest

theorem exists_moveForward (weightOf : Nat → W) (host : Nat) (ahead behind : List Nat) :
    ∃ kept passed, kept ++ passed = ahead ∧
      moveForward weightOf host ahead behind = kept ++ host :: (passed ++ behind) ∧
      (∀ other ∈ passed, Weight.below (weightOf other) (weightOf host) = true) ∧
      ∀ last ∈ kept.getLast?, ¬ Weight.below (weightOf last) (weightOf host) = true := by
  let isBelow := fun other => Weight.below (weightOf other) (weightOf host)
  refine ⟨(ahead.reverse.dropWhile isBelow).reverse, (ahead.reverse.takeWhile isBelow).reverse,
    ?_, ?_, ?_, ?_⟩
  · rw [← List.reverse_append, List.takeWhile_append_dropWhile, List.reverse_reverse]
  · simp [moveForward, isBelow]
  · intro other member
    exact List.all_eq_true.mp List.all_takeWhile other (List.mem_reverse.mp member)
  · intro last isLast
    rw [List.getLast?_reverse] at isLast
    have notBelow := List.head?_dropWhile_not isBelow ahead.reverse
    rw [Option.mem_def.mp isLast] at notBelow
    simpa [isBelow] using notBelow

theorem exists_moveBackward (weightOf : Nat → W) (host : Nat) (ahead behind : List Nat) :
    ∃ passed kept, passed ++ kept = behind ∧
      moveBackward weightOf host ahead behind = (ahead ++ passed) ++ host :: kept ∧
      (∀ other ∈ passed, Weight.below (weightOf host) (weightOf other) = true) ∧
      ∀ first ∈ kept.head?, ¬ Weight.below (weightOf host) (weightOf first) = true := by
  let isAbove := fun other => Weight.below (weightOf host) (weightOf other)
  refine ⟨behind.takeWhile isAbove, behind.dropWhile isAbove, ?_, ?_, ?_, ?_⟩
  · exact List.takeWhile_append_dropWhile
  · simp [moveBackward, isAbove]
  · intro other member
    exact List.all_eq_true.mp List.all_takeWhile other member
  · intro first isFirst
    have notAbove := List.head?_dropWhile_not isAbove behind
    rw [Option.mem_def.mp isFirst] at notAbove
    simpa [isAbove] using notAbove

/-- The host is taken out of the order and put in again. -/
theorem exists_reorder (weightOf : Nat → W) (old : W) (host : Nat) (order : List Nat) :
    ∃ front back, reorder weightOf old host order = front ++ host :: back ∧
      front ++ back = ahead host order ++ behind host order := by
  by_cases better : Weight.below old (weightOf host) = true
  · obtain ⟨kept, passed, split, moved, -, -⟩ :=
      exists_moveForward weightOf host (ahead host order) (behind host order)
    refine ⟨kept, passed ++ behind host order, ?_, ?_⟩
    · rw [reorder, if_pos better, moved]
    · rw [← List.append_assoc, split]
  · obtain ⟨passed, kept, split, moved, -, -⟩ :=
      exists_moveBackward weightOf host (ahead host order) (behind host order)
    refine ⟨ahead host order ++ passed, kept, ?_, ?_⟩
    · rw [reorder, if_neg better, moved]
    · rw [List.append_assoc, split]

theorem reorder_perm {weightOf : Nat → W} {old : W} {host : Nat} {order : List Nat}
    (member : host ∈ order) : (reorder weightOf old host order).Perm order := by
  obtain ⟨front, back, moved, split⟩ := exists_reorder weightOf old host order
  have taken : (front ++ host :: back).Perm (host :: (front ++ back)) := List.perm_middle
  rw [split] at taken
  have restored := taken.trans List.perm_middle.symm
  rwa [ahead_append_behind member, ← moved] at restored

theorem reorder_filter_ne {weightOf : Nat → W} {old : W} {host : Nat} {order : List Nat}
    (member : host ∈ order) :
    (reorder weightOf old host order).filter (· != host) = order.filter (· != host) := by
  obtain ⟨front, back, moved, split⟩ := exists_reorder weightOf old host order
  calc
    (reorder weightOf old host order).filter (· != host)
        = (front ++ back).filter (· != host) := by simp [moved]
    _ = (ahead host order ++ behind host order).filter (· != host) := by rw [split]
    _ = (ahead host order ++ host :: behind host order).filter (· != host) := by simp
    _ = order.filter (· != host) := by rw [ahead_append_behind member]

def IsAtLeast (weightOf : Nat → W) (first second : Nat) : Prop :=
  Weight.atLeast (weightOf first) (weightOf second) = true

/-- One host may stand before another in an order that keeps `earlier` among hosts of
the same weight. -/
def MayPrecede (weightOf : Nat → W) (earlier : Nat → Nat → Prop) (first second : Nat) : Prop :=
  IsAtLeast weightOf first second ∧ (IsAtLeast weightOf second first → earlier first second)

theorem pairwise_insert {relation : Nat → Nat → Prop} {front back : List Nat} {host : Nat}
    (others : (front ++ back).Pairwise relation) (fromFront : ∀ other ∈ front, relation other host)
    (toBack : ∀ other ∈ back, relation host other) :
    (front ++ host :: back).Pairwise relation := by
  obtain ⟨frontPairwise, backPairwise, cross⟩ := List.pairwise_append.mp others
  refine List.pairwise_append.mpr ⟨frontPairwise, List.pairwise_cons.mpr ⟨toBack, backPairwise⟩, ?_⟩
  intro first firstMember second secondMember
  rcases List.mem_cons.mp secondMember with equal | inBack
  · exact equal ▸ fromFront first firstMember
  · exact cross first firstMember second inBack

variable [LawfulWeight W]

/-- If the last of a ranked list is no worse than a host, none of the list is. -/
theorem isAtLeast_of_getLast? {weightOf : Nat → W} {kept : List Nat} {host : Nat}
    (ranked : kept.Pairwise (IsAtLeast weightOf))
    (lastAtLeast : ∀ last ∈ kept.getLast?, IsAtLeast weightOf last host) :
    ∀ other ∈ kept, IsAtLeast weightOf other host := by
  intro other member
  rcases List.eq_nil_or_concat kept with empty | ⟨front, last, split⟩
  · simp [empty] at member
  · rw [List.concat_eq_append] at split
    subst split
    have lastGood : IsAtLeast weightOf last host := lastAtLeast last (by simp)
    rcases List.mem_append.mp member with inFront | isLast
    · have better := (List.pairwise_append.mp ranked).2.2 other inFront last (by simp)
      exact LawfulWeight.atLeast_trans better lastGood
    · rw [List.mem_singleton.mp isLast]
      exact lastGood

/-- If a host is no worse than the first of a ranked list, it is so for the whole
list. -/
theorem isAtLeast_of_head? {weightOf : Nat → W} {kept : List Nat} {host : Nat}
    (ranked : kept.Pairwise (IsAtLeast weightOf))
    (firstAtLeast : ∀ first ∈ kept.head?, IsAtLeast weightOf host first) :
    ∀ other ∈ kept, IsAtLeast weightOf host other := by
  intro other member
  cases kept with
  | nil => simp at member
  | cons first rest =>
      have firstGood : IsAtLeast weightOf host first := firstAtLeast first (by simp)
      rcases List.mem_cons.mp member with equal | inRest
      · rw [equal]
        exact firstGood
      · exact LawfulWeight.atLeast_trans firstGood
          ((List.pairwise_cons.mp ranked).1 other inRest)

section Reorder

variable {weightOf : Nat → W} {earlier : Nat → Nat → Prop} {host : Nat} {front back : List Nat}

/-- A host that is at least as good as all behind it may move forward. -/
theorem moveForward_pairwise (numbers : ∀ other, Weight.IsNumber (weightOf other))
    (others : (front ++ back).Pairwise (MayPrecede weightOf earlier))
    (behindAhead : ∀ other ∈ front, earlier other host)
    (aheadBehind : ∀ other ∈ back, MayPrecede weightOf earlier host other) :
    (moveForward weightOf host front back).Pairwise (MayPrecede weightOf earlier) := by
  obtain ⟨kept, passed, split, moved, passedBelow, lastNotBelow⟩ :=
    exists_moveForward weightOf host front back
  have frontRanked : front.Pairwise (IsAtLeast weightOf) :=
    (List.pairwise_append.mp others).1.imp And.left
  have keptRanked : kept.Pairwise (IsAtLeast weightOf) := by
    rw [← split] at frontRanked
    exact (List.pairwise_append.mp frontRanked).1
  have keptAtLeast : ∀ other ∈ kept, IsAtLeast weightOf other host :=
    isAtLeast_of_getLast? keptRanked fun last isLast =>
      LawfulWeight.atLeast_of_not_below (numbers last) (numbers host) (lastNotBelow last isLast)
  rw [moved]
  apply pairwise_insert
  · rwa [← List.append_assoc, split]
  · intro other member
    have inFront : other ∈ front := by simp [← split, member]
    exact ⟨keptAtLeast other member, fun _ => behindAhead other inFront⟩
  · intro other member
    rcases List.mem_append.mp member with wasPassed | wasBehind
    · -- a host that is passed is strictly worse, so nothing is asked of their order before
      have below := passedBelow other wasPassed
      refine ⟨LawfulWeight.atLeast_of_below (numbers other) (numbers host) below, fun atLeast => ?_⟩
      exact absurd atLeast
        (LawfulWeight.not_atLeast_of_below (numbers other) (numbers host) below)
    · exact aheadBehind other wasBehind

/-- A host to which all ahead of it are at least as good may move backward. -/
theorem moveBackward_pairwise (numbers : ∀ other, Weight.IsNumber (weightOf other))
    (others : (front ++ back).Pairwise (MayPrecede weightOf earlier))
    (behindAhead : ∀ other ∈ front, MayPrecede weightOf earlier other host)
    (aheadBehind : ∀ other ∈ back, earlier host other) :
    (moveBackward weightOf host front back).Pairwise (MayPrecede weightOf earlier) := by
  obtain ⟨passed, kept, split, moved, passedAbove, firstNotAbove⟩ :=
    exists_moveBackward weightOf host front back
  have backRanked : back.Pairwise (IsAtLeast weightOf) :=
    (List.pairwise_append.mp others).2.1.imp And.left
  have keptRanked : kept.Pairwise (IsAtLeast weightOf) := by
    rw [← split] at backRanked
    exact (List.pairwise_append.mp backRanked).2.1
  have keptAtMost : ∀ other ∈ kept, IsAtLeast weightOf host other :=
    isAtLeast_of_head? keptRanked fun first isFirst =>
      LawfulWeight.atLeast_of_not_below (numbers host) (numbers first) (firstNotAbove first isFirst)
  rw [moved]
  apply pairwise_insert
  · rwa [List.append_assoc, split]
  · intro other member
    rcases List.mem_append.mp member with wasAhead | wasPassed
    · exact behindAhead other wasAhead
    · have below := passedAbove other wasPassed
      refine ⟨LawfulWeight.atLeast_of_below (numbers host) (numbers other) below, fun atLeast => ?_⟩
      exact absurd atLeast
        (LawfulWeight.not_atLeast_of_below (numbers host) (numbers other) below)
  · intro other member
    have inBack : other ∈ back := by simp [← split, member]
    exact ⟨keptAtMost other member, fun _ => aheadBehind other inBack⟩

omit [Weight W] [LawfulWeight W] in
theorem ne_of_mem_others (nodup : (front ++ host :: back).Nodup) :
    ∀ other ∈ front ++ back, other ≠ host := by
  intro other member equal
  have hostFirst : (host :: (front ++ back)).Nodup := List.perm_middle.nodup_iff.mp nodup
  exact (List.nodup_cons.mp hostFirst).1 (equal ▸ member)

omit [LawfulWeight W] in
/-- Without the host whose weight has changed, an order is as sorted as it was before. -/
theorem others_pairwise {weightBefore : Nat → W} (nodup : (front ++ host :: back).Nodup)
    (ranked : (front ++ host :: back).Pairwise (IsAtLeast weightBefore))
    (sorted : (front ++ host :: back).Pairwise earlier)
    (unchanged : ∀ other, other ≠ host → weightOf other = weightBefore other) :
    (front ++ back).Pairwise (MayPrecede weightOf earlier) := by
  have rankedBefore : (front ++ back).Pairwise (IsAtLeast weightBefore) :=
    ranked.sublist (by simp)
  have sortedBefore : (front ++ back).Pairwise earlier := sorted.sublist (by simp)
  refine (rankedBefore.and sortedBefore).imp_of_mem ?_
  rintro first second firstMember secondMember ⟨atLeast, isEarlier⟩
  refine ⟨?_, fun _ => isEarlier⟩
  rwa [IsAtLeast, unchanged first (ne_of_mem_others nodup first firstMember),
    unchanged second (ne_of_mem_others nodup second secondMember)]

end Reorder

/-- Ranking again after the weight of one host has changed: the order is ranked by the
new weights, and hosts of the same weight keep any relation `earlier` that the order
before was sorted by. -/
theorem reorder_pairwise {weightBefore weightOf : Nat → W} {earlier : Nat → Nat → Prop}
    {host : Nat} {order : List Nat} (member : host ∈ order) (nodup : order.Nodup)
    (ranked : order.Pairwise (IsAtLeast weightBefore)) (sorted : order.Pairwise earlier)
    (oldNumber : Weight.IsNumber (weightBefore host))
    (numbers : ∀ other, Weight.IsNumber (weightOf other))
    (unchanged : ∀ other, other ≠ host → weightOf other = weightBefore other) :
    (reorder weightOf (weightBefore host) host order).Pairwise
      (MayPrecede weightOf earlier) := by
  have split := ahead_append_behind member
  generalize frontEq : ahead host order = front at split
  generalize backEq : behind host order = back at split
  rw [← split] at nodup ranked sorted
  have others := others_pairwise nodup ranked sorted unchanged
  have notHost := ne_of_mem_others nodup
  obtain ⟨-, hostRanked, crossRanked⟩ := List.pairwise_append.mp ranked
  obtain ⟨-, hostSorted, crossSorted⟩ := List.pairwise_append.mp sorted
  obtain ⟨hostAtLeast, -⟩ := List.pairwise_cons.mp hostRanked
  obtain ⟨hostEarlier, -⟩ := List.pairwise_cons.mp hostSorted
  rw [reorder, frontEq, backEq]
  split
  · next better =>
    refine moveForward_pairwise numbers others
      (fun other inFront => crossSorted other inFront host (by simp)) ?_
    intro other inBack
    have risen := LawfulWeight.atLeast_of_below oldNumber (numbers host) better
    have atLeast := LawfulWeight.atLeast_trans risen (hostAtLeast other inBack)
    rw [← unchanged other (notHost other (by simp [inBack]))] at atLeast
    exact ⟨atLeast, fun _ => hostEarlier other inBack⟩
  · next notBetter =>
    refine moveBackward_pairwise numbers others ?_ hostEarlier
    intro other inFront
    have fallen := LawfulWeight.atLeast_of_not_below oldNumber (numbers host) notBetter
    have atLeast := LawfulWeight.atLeast_trans (crossRanked other inFront host (by simp)) fallen
    rw [← unchanged other (notHost other (by simp [inFront]))] at atLeast
    exact ⟨atLeast, fun _ => crossSorted other inFront host (by simp)⟩

end BucketView

end CacheRouting
