import CacheRouting.Proofs.Routing.Reach
import Mathlib

/-!
# First choices

The bucket of a hash is in its top bits, so the hashes of a bucket stand in a row.
How far the hosts of the bucket are turned is the remainder of the same hash by
their number, and along a row every remainder comes up equally often, but for one
round at the end that is not complete.  So each host is the first choice of as many
hashes as any other, or of one more.
-/

namespace CacheRouting

theorem exists_add_modEq_iff_modEq (start remainder : Nat) {divisor : Nat} (positive : 0 < divisor) :
    ∃ other, ∀ offset, start + offset ≡ remainder [MOD divisor] ↔ offset ≡ other [MOD divisor] := by
  obtain ⟨before, rfl⟩ := Nat.exists_eq_add_one_of_ne_zero positive.ne'
  have wholeTurns : start + (start * before + remainder) ≡ remainder [MOD before + 1] := by
    have turns : start + (start * before + remainder) = remainder + (before + 1) * start := by ring
    rw [turns]
    exact Nat.add_modulus_mul_modEq_iff.mpr rfl
  refine ⟨start * before + remainder, fun offset => ⟨fun same => ?_, fun same => ?_⟩⟩
  · exact (same.trans wholeTurns.symm).add_left_cancel' start
  · exact (same.add_left start).trans wholeTurns

theorem ceilDiv_of_mod_pos {length divisor : Nat} (incomplete : 0 < length % divisor)
    (positive : 0 < divisor) : length ⌈/⌉ divisor = length / divisor + 1 := by
  have less : divisor - 1 < divisor := Nat.sub_one_lt positive.ne'
  rw [Nat.ceilDiv_eq_add_pred_div, Nat.add_sub_assoc positive, Nat.add_div positive,
    Nat.div_eq_of_lt less, Nat.mod_eq_of_lt less, if_pos (by omega)]

/-- Along a row, each remainder comes up as often as the divisor goes into the length, rounded
down or up. -/
theorem card_filter_modEq (start length remainder : Nat) {divisor : Nat} (positive : 0 < divisor) :
    ((Finset.Ico start (start + length)).filter (· ≡ remainder [MOD divisor])).card =
        length / divisor ∨
      ((Finset.Ico start (start + length)).filter (· ≡ remainder [MOD divisor])).card =
        length ⌈/⌉ divisor := by
  obtain ⟨other, sameOffsets⟩ := exists_add_modEq_iff_modEq start remainder positive
  have shifted : Finset.Ico start (start + length) =
      (Finset.range length).map (addLeftEmbedding start) := by
    rw [Finset.range_eq_Ico, Finset.map_add_left_Ico, Nat.add_zero]
  have counted : ((Finset.Ico start (start + length)).filter (· ≡ remainder [MOD divisor])).card =
      length / divisor + if other % divisor < length % divisor then 1 else 0 := by
    rw [← Nat.count_modEq_card length positive other, Nat.count_eq_card_filter_range, shifted,
      Finset.filter_map, Finset.card_map]
    simp only [Function.comp_def, addLeftEmbedding_apply, sameOffsets]
  rw [counted]
  split
  · next inLastRound =>
    rw [ceilDiv_of_mod_pos (Nat.zero_lt_of_lt inLastRound) positive]
    exact Or.inr rfl
  · exact Or.inl (Nat.add_zero _)

namespace ManualRouter

/-- Where a member stands that comes to a place by turning. -/
theorem getElem?_rotateRight (members : List Nat) (amount : Nat) {place : Nat}
    (inside : place < members.length) :
    (members.rotateRight amount)[place]? =
      members[(place + members.length - amount % members.length) % members.length]? := by
  have turned := Nat.mod_lt amount (Nat.zero_lt_of_lt inside)
  rw [rotateRight_eq_rotate, List.getElem?_rotate inside, Nat.add_sub_assoc turned.le]

theorem sub_mod_eq_iff {size place amount : Nat} (inside : place < size) :
    (size - amount % size) % size = place ↔ amount ≡ size - place [MOD size] := by
  have turned := Nat.mod_lt amount (Nat.zero_lt_of_lt inside)
  unfold Nat.ModEq
  -- where nothing is subtracted the difference is a whole turn, and elsewhere it is less
  rcases Nat.eq_zero_or_pos (amount % size) with whole | partly
  · rw [whole, Nat.sub_zero, Nat.mod_self]
    rcases Nat.eq_zero_or_pos place with rfl | later
    · rw [Nat.sub_zero, Nat.mod_self]
    · rw [Nat.mod_eq_of_lt (by omega : size - place < size)]
      omega
  · rw [Nat.mod_eq_of_lt (by omega : size - amount % size < size)]
    rcases Nat.eq_zero_or_pos place with rfl | later
    · rw [Nat.sub_zero, Nat.mod_self]
      omega
    · rw [Nat.mod_eq_of_lt (by omega : size - place < size)]
      omega

/-- The member at a place comes first for the amounts of one remainder. -/
theorem head?_rotateRight_eq_iff {members : List Nat} (distinct : members.Nodup) (amount : Nat)
    {place : Nat} (inside : place < members.length) :
    (members.rotateRight amount).head? = some members[place] ↔
      amount ≡ members.length - place [MOD members.length] := by
  have positive := Nat.zero_lt_of_lt inside
  rw [List.head?_eq_getElem?, getElem?_rotateRight members amount positive, Nat.zero_add,
    ← List.getElem?_eq_getElem inside, List.getElem?_inj (Nat.mod_lt _ positive) distinct,
    sub_mod_eq_iff inside]

def hashesOf (router : ManualRouter) (bucket : Nat) : Finset Nat :=
  (Finset.range (2 ^ 32)).filter fun hash => router.bucketByHash hash = bucket

/-- The hashes that select a bucket and are given a host as their first choice. -/
def firstChosenBy (router : ManualRouter) (bucket index : Nat) : Finset Nat :=
  (router.hashesOf bucket).filter fun hash => (router.routeByHash hash).head? = some index

section Built

variable {assignment : List (Host × List Nat)} {method : HashMethod} {router : ManualRouter}

theorem hashesOf_eq (built : build assignment method = .ok router) {bucket : Nat}
    (reached : bucket < router.reachedCount) :
    router.hashesOf bucket =
      Finset.Ico (bucket * 2 ^ (32 - Bucket.width router.bucketCount))
        (bucket * 2 ^ (32 - Bucket.width router.bucketCount) +
          2 ^ (32 - Bucket.width router.bucketCount)) := by
  have isWord := Bucket.row_le (width_le built) reached
  ext hash
  rw [hashesOf, Finset.mem_filter, Finset.mem_range, Finset.mem_Ico, bucketByHash,
    Bucket.topBits_eq_iff]
  exact and_iff_right_of_imp fun inRow => inRow.2.trans_le isWord

theorem card_firstChosenBy (built : build assignment method = .ok router) {bucket index : Nat}
    (reached : bucket < router.reachedCount) {members : List Nat}
    (has : router.members[bucket]? = some members) (distinct : members.Nodup)
    (isMember : index ∈ members) :
    (router.firstChosenBy bucket index).card =
        2 ^ (32 - Bucket.width router.bucketCount) / members.length ∨
      (router.firstChosenBy bucket index).card =
        2 ^ (32 - Bucket.width router.bucketCount) ⌈/⌉ members.length := by
  obtain ⟨place, inside, rfl⟩ := List.getElem_of_mem isMember
  have byRemainder : router.firstChosenBy bucket members[place] =
      (router.hashesOf bucket).filter (· ≡ members.length - place [MOD members.length]) := by
    apply Finset.filter_congr
    intro hash selects
    have isSelected : router.bucketByHash hash = bucket := (Finset.mem_filter.mp selects).2
    rw [routeByHash_eq_rotateRight (isSelected ▸ has), head?_rotateRight_eq_iff distinct _ inside]
    exact ⟨(Nat.mod_modEq hash _).symm.trans, (Nat.mod_modEq hash _).trans⟩
  rw [byRemainder, hashesOf_eq built reached]
  exact card_filter_modEq _ _ _ (Nat.zero_lt_of_lt inside)

end Built

/-- Turning spreads the first choice evenly.  An ordinary key gets the hosts that its hash is
given.  For each bucket that hashes reach equally many select it, and of these each host of the
bucket is the first choice of as many as their number goes into them, rounded down or up. -/
theorem first_choices_are_even {assignment : List (Host × List Nat)} {method : HashMethod}
    {router : ManualRouter} (built : build assignment method = .ok router) :
    (∀ key, Bucket.IsOrdinary key →
      router.bucketOf key = router.bucketByHash (router.method.hashText key) ∧
        ((Scheduler.manual router).hostsFor key).map some =
          (router.routeByHash (router.method.hashText key)).map fun index => router.hosts[index]?) ∧
    ∀ bucket < 2 ^ Bucket.width router.bucketCount,
      (router.hashesOf bucket).card = 2 ^ (32 - Bucket.width router.bucketCount) ∧
        ∃ members, router.members[bucket]? = some members ∧ members ≠ [] ∧
          ∀ index ∈ members,
            (router.firstChosenBy bucket index).card =
                2 ^ (32 - Bucket.width router.bucketCount) / members.length ∨
              (router.firstChosenBy bucket index).card =
                2 ^ (32 - Bucket.width router.bucketCount) ⌈/⌉ members.length := by
  constructor
  · intro key ordinary
    rw [← route_of_isOrdinary router ordinary]
    exact ⟨bucketOf_of_isOrdinary router ordinary, (answers built key).hostsFor_eq⟩
  · intro bucket reached
    obtain ⟨-, -, -, -, members⟩ := build_eq_ok built
    obtain ⟨has, someServe⟩ := members bucket (reached.trans_le (reachedCount_le built))
    have distinct := nodup_servers assignment bucket
    refine ⟨?_, _, has, someServe, fun index => card_firstChosenBy built reached has distinct⟩
    rw [hashesOf_eq built reached, Nat.card_Ico, Nat.add_sub_cancel_left]

/-- Three hosts cannot share half of the hashes evenly. -/
theorem first_choices_are_even_for_three :
    ∃ router, build [(⟨"a:1"⟩, [0, 1]), (⟨"b:1"⟩, [0]), (⟨"c:1"⟩, [1, 0])] .md5 = .ok router ∧
      (router.hashesOf 0).card = 2147483648 ∧
      ((router.firstChosenBy 0 1).card = 715827882 ∨ (router.firstChosenBy 0 1).card = 715827883) := by
  have built : build [(⟨"a:1"⟩, [0, 1]), (⟨"b:1"⟩, [0]), (⟨"c:1"⟩, [1, 0])] .md5 =
      .ok ⟨[⟨"a:1"⟩, ⟨"b:1"⟩, ⟨"c:1"⟩], #[[0, 1, 2], [0, 2]], .md5⟩ := by cbv
  obtain ⟨count, members, has, -, even⟩ := (first_choices_are_even built).2 0 (by decide)
  cases has
  exact ⟨_, built, count, even 1 (by decide)⟩

end ManualRouter

end CacheRouting
