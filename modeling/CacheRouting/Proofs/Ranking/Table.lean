import CacheRouting.Proofs.Ranking.View
import CacheRouting.Ranking.Table

/-!
# Reports on a table

A report touches the view of its own bucket and no other.  On a table whose views
cover all hosts it is counted exactly when it names a bucket and a host of the
table; otherwise the table stays as it is.  So what a sequence of reports makes of
a bucket depends on those alone that name the bucket and a host.
-/

namespace CacheRouting

namespace RoutingTable

variable {W : Type}

theorem bucketCount_store (table : RoutingTable W) (bucket : Nat) (view : BucketView W) :
    (table.store bucket view).bucketCount = table.bucketCount :=
  Array.size_setIfInBounds

theorem view?_store_self {table : RoutingTable W} {bucket : Nat} (view : BucketView W)
    (known : bucket < table.bucketCount) :
    (table.store bucket view).view? bucket = some view := by
  simp [view?, store, show bucket < table.views.size from known]

theorem view?_store_of_ne (table : RoutingTable W) {bucket other : Nat} (view : BucketView W)
    (different : other ≠ bucket) : (table.store bucket view).view? other = table.view? other := by
  simp [view?, store, Array.getElem?_setIfInBounds_ne different.symm]

theorem lt_bucketCount_of_view? {table : RoutingTable W} {bucket : Nat} {view : BucketView W}
    (has : table.view? bucket = some view) : bucket < table.bucketCount :=
  (Array.getElem?_eq_some_iff.mp has).1

theorem store_view? {table : RoutingTable W} {bucket : Nat} {view : BucketView W}
    (has : table.view? bucket = some view) : table.store bucket view = table := by
  obtain ⟨known, found⟩ := Array.getElem?_eq_some_iff.mp has
  simp [store, Array.setIfInBounds, known, ← found]

/-- A table with so many buckets, the views of which all have a property. -/
structure Holds (holds : BucketView W → Prop) (bucketCount : Nat) (table : RoutingTable W) :
    Prop where
  bucketCount_eq : table.bucketCount = bucketCount
  of_view? : ∀ {bucket view}, table.view? bucket = some view → holds view

theorem Holds.exists_view? {holds : BucketView W → Prop} {bucketCount bucket : Nat}
    {table : RoutingTable W} (held : table.Holds holds bucketCount) (known : bucket < bucketCount) :
    ∃ view, table.view? bucket = some view ∧ holds view := by
  have inside : bucket < table.views.size := by
    have size : table.views.size = bucketCount := held.bucketCount_eq
    omega
  have found : table.view? bucket = some table.views[bucket] := Array.getElem?_eq_getElem inside
  exact ⟨_, found, held.of_view? found⟩

theorem Holds.store {holds : BucketView W → Prop} {bucketCount bucket : Nat}
    {table : RoutingTable W} {view : BucketView W} (held : table.Holds holds bucketCount)
    (viewHolds : holds view) : (table.store bucket view).Holds holds bucketCount where
  bucketCount_eq := (bucketCount_store table bucket view).trans held.bucketCount_eq
  of_view? := by
    intro other found has
    by_cases same : other = bucket
    · subst same
      have known := bucketCount_store table other view ▸ lt_bucketCount_of_view? has
      rw [view?_store_self view known, Option.some.injEq] at has
      exact has ▸ viewHolds
    · rw [view?_store_of_ne table view same] at has
      exact held.of_view? has

variable [Weight W]

theorem bucketCount_initial (hostCount bucketCount : Nat) :
    (initial hostCount bucketCount : RoutingTable W).bucketCount = bucketCount :=
  Array.size_replicate

theorem view?_initial {hostCount bucketCount bucket : Nat} (known : bucket < bucketCount) :
    (initial hostCount bucketCount : RoutingTable W).view? bucket =
      some (BucketView.initial hostCount) := by
  simp [view?, initial, known]

theorem holds_initial {holds : BucketView W → Prop} {hostCount : Nat} (bucketCount : Nat)
    (viewHolds : holds (BucketView.initial hostCount)) :
    (initial hostCount bucketCount).Holds holds bucketCount where
  bucketCount_eq := bucketCount_initial hostCount bucketCount
  of_view? := by
    intro bucket view has
    have known := lt_bucketCount_of_view? has
    rw [bucketCount_initial] at known
    rw [view?_initial known, Option.some.injEq] at has
    exact has ▸ viewHolds

theorem apply_of_view? {table : RoutingTable W} {item : Feedback W} {view : BucketView W}
    (has : table.view? item.bucket = some view) :
    table.apply item = ((view.report item.host item.amount).1,
      table.store item.bucket (view.report item.host item.amount).2) := by
  simp [apply, has]

theorem apply_of_view?_eq_none {table : RoutingTable W} {item : Feedback W}
    (hasNot : table.view? item.bucket = none) : table.apply item = (false, table) := by
  simp [apply, hasNot]

theorem Holds.apply {holds : BucketView W → Prop} {bucketCount : Nat} {table : RoutingTable W}
    {item : Feedback W} (held : table.Holds holds bucketCount)
    (preserved : ∀ view, holds view → holds (view.report item.host item.amount).2) :
    (table.apply item).2.Holds holds bucketCount := by
  cases has : table.view? item.bucket with
  | none =>
      rw [apply_of_view?_eq_none has]
      exact held
  | some view =>
      rw [apply_of_view? has]
      exact held.store (preserved view (held.of_view? has))

abbrev Covers (table : RoutingTable W) (hostCount bucketCount : Nat) : Prop :=
  table.Holds (·.Covers hostCount) bucketCount

theorem covers_initial (hostCount bucketCount : Nat) :
    (initial hostCount bucketCount : RoutingTable W).Covers hostCount bucketCount :=
  holds_initial bucketCount (BucketView.covers_initial hostCount)

theorem Covers.apply {table : RoutingTable W} {hostCount bucketCount : Nat}
    (covers : table.Covers hostCount bucketCount) (item : Feedback W) :
    (table.apply item).2.Covers hostCount bucketCount :=
  Holds.apply covers fun _ viewCovers => viewCovers.report item.host item.amount

end RoutingTable

def Feedback.isWithin {W : Type} (item : Feedback W) (hostCount bucketCount : Nat) : Bool :=
  item.bucket < bucketCount && item.host < hostCount

namespace RoutingTable

variable {W : Type} [Weight W]

/-- A report within the table updates one view. -/
theorem Covers.apply_of_isWithin {table : RoutingTable W} {hostCount bucketCount : Nat}
    {item : Feedback W} (covers : table.Covers hostCount bucketCount)
    (within : item.isWithin hostCount bucketCount = true) :
    ∃ view, table.view? item.bucket = some view ∧
      table.apply item =
        (true, table.store item.bucket (view.updated item.host item.amount)) := by
  simp only [Feedback.isWithin, Bool.and_eq_true, decide_eq_true_eq] at within
  obtain ⟨view, has, viewCovers⟩ := covers.exists_view? within.1
  exact ⟨view, has, by rw [apply_of_view? has, viewCovers.report_of_lt within.2]⟩

/-- Any other report changes nothing. -/
theorem Covers.apply_of_not_isWithin {table : RoutingTable W} {hostCount bucketCount : Nat}
    {item : Feedback W} (covers : table.Covers hostCount bucketCount)
    (outside : ¬ item.isWithin hostCount bucketCount = true) :
    table.apply item = (false, table) := by
  cases has : table.view? item.bucket with
  | none => exact apply_of_view?_eq_none has
  | some view =>
      have known : item.bucket < bucketCount := covers.bucketCount_eq ▸ lt_bucketCount_of_view? has
      have unknown : ¬ item.host < hostCount := by
        simpa [Feedback.isWithin, known] using outside
      rw [apply_of_view? has, (covers.of_view? has).report_of_not_lt unknown, store_view? has]

theorem Covers.apply_fst {table : RoutingTable W} {hostCount bucketCount : Nat}
    (covers : table.Covers hostCount bucketCount) (item : Feedback W) :
    (table.apply item).1 = item.isWithin hostCount bucketCount := by
  by_cases within : item.isWithin hostCount bucketCount = true
  · obtain ⟨view, -, applied⟩ := covers.apply_of_isWithin within
    rw [applied, within]
  · rw [covers.apply_of_not_isWithin within]
    simpa using within

theorem view?_apply_of_ne (table : RoutingTable W) {item : Feedback W} {bucket : Nat}
    (different : bucket ≠ item.bucket) : (table.apply item).2.view? bucket = table.view? bucket := by
  cases has : table.view? item.bucket with
  | none => rw [apply_of_view?_eq_none has]
  | some view => rw [apply_of_view? has, view?_store_of_ne table _ different]

/-- What a report makes of its bucket depends on nothing but the view of the bucket. -/
theorem view?_apply_self (table : RoutingTable W) (item : Feedback W) :
    (table.apply item).2.view? item.bucket =
      (table.view? item.bucket).map fun view => (view.report item.host item.amount).2 := by
  cases has : table.view? item.bucket with
  | none =>
      rw [apply_of_view?_eq_none has, has]
      rfl
  | some view =>
      rw [apply_of_view? has, view?_store_self _ (lt_bucketCount_of_view? has)]
      rfl

/-- A copy of the bucket that a report names makes up for the report. -/
theorem store_of_view?_apply {table : RoutingTable W} {item : Feedback W} {view : BucketView W}
    (has : (table.apply item).2.view? item.bucket = some view) :
    table.store item.bucket view = (table.apply item).2 := by
  rw [view?_apply_self, Option.map_eq_some_iff] at has
  obtain ⟨before, hasBefore, reported⟩ := has
  rw [apply_of_view? hasBefore, reported]

theorem apply_of_view?_apply_eq_none {table : RoutingTable W} {item : Feedback W}
    (hasNot : (table.apply item).2.view? item.bucket = none) :
    (table.apply item).2 = table := by
  rw [view?_apply_self, Option.map_eq_none_iff] at hasNot
  rw [apply_of_view?_eq_none hasNot]

def applyAll (table : RoutingTable W) (items : List (Feedback W)) : RoutingTable W :=
  items.foldl (fun table item => (table.apply item).2) table

@[simp]
theorem applyAll_append (table : RoutingTable W) (first second : List (Feedback W)) :
    table.applyAll (first ++ second) = (table.applyAll first).applyAll second :=
  List.foldl_append

@[simp]
theorem applyAll_cons (table : RoutingTable W) (item : Feedback W) (items : List (Feedback W)) :
    table.applyAll (item :: items) = (table.apply item).2.applyAll items :=
  rfl

theorem Holds.applyAll {holds : BucketView W → Prop} {bucketCount : Nat} {table : RoutingTable W}
    {items : List (Feedback W)} (held : table.Holds holds bucketCount)
    (preserved : ∀ item ∈ items, ∀ view, holds view →
      holds (view.report item.host item.amount).2) :
    (table.applyAll items).Holds holds bucketCount := by
  induction items generalizing table with
  | nil => exact held
  | cons item items ih =>
      obtain ⟨itemPreserves, restPreserve⟩ := List.forall_mem_cons.mp preserved
      exact ih (held.apply itemPreserves) restPreserve

theorem Covers.applyAll {table : RoutingTable W} {hostCount bucketCount : Nat}
    (covers : table.Covers hostCount bucketCount) (items : List (Feedback W)) :
    (table.applyAll items).Covers hostCount bucketCount :=
  Holds.applyAll covers fun item _ _ viewCovers => viewCovers.report item.host item.amount

def reportsOn (hostCount bucketCount bucket : Nat) (items : List (Feedback W)) :
    List (Feedback W) :=
  items.filter fun item => item.bucket == bucket && item.isWithin hostCount bucketCount

/-- Two tables that agree on a bucket still agree on it after the same report. -/
theorem view?_apply_congr {first second : RoutingTable W} {bucket : Nat}
    (same : first.view? bucket = second.view? bucket) (item : Feedback W) :
    (first.apply item).2.view? bucket = (second.apply item).2.view? bucket := by
  by_cases own : bucket = item.bucket
  · subst own
    rw [view?_apply_self, view?_apply_self, same]
  · rw [view?_apply_of_ne first own, view?_apply_of_ne second own, same]

/-- A bucket comes from the reports that name it and a host; the others may be left out. -/
theorem Covers.view?_applyAll {table other : RoutingTable W} {hostCount bucketCount bucket : Nat}
    (covers : table.Covers hostCount bucketCount) (same : table.view? bucket = other.view? bucket)
    (items : List (Feedback W)) :
    (table.applyAll items).view? bucket =
      (other.applyAll (reportsOn hostCount bucketCount bucket items)).view? bucket := by
  induction items generalizing table other with
  | nil => exact same
  | cons item items ih =>
      have kept := covers.apply item
      by_cases counted : (item.bucket == bucket && item.isWithin hostCount bucketCount) = true
      · rw [reportsOn, List.filter_cons, if_pos counted, applyAll_cons, applyAll_cons]
        exact ih kept (view?_apply_congr same item)
      · rw [reportsOn, List.filter_cons, if_neg counted, applyAll_cons]
        refine ih kept (Eq.trans ?_ same)
        by_cases own : bucket = item.bucket
        · have outside : ¬ item.isWithin hostCount bucketCount = true := by
            simpa [own] using counted
          rw [covers.apply_of_not_isWithin outside]
        · exact view?_apply_of_ne table own

/-- On a table that is reached by any reports, a further one is counted exactly when it names
a bucket and a host of the table.  One that is not counted changes nothing at all.  One that
is counted changes nothing but the weight and the place of its host in its bucket. -/
theorem apply_is_all_or_nothing {hostCount bucketCount : Nat} {table : RoutingTable W}
    {items : List (Feedback W)} (reached : (initial hostCount bucketCount).applyAll items = table)
    (item : Feedback W) :
    ((table.apply item).1 = true ↔ item.bucket < bucketCount ∧ item.host < hostCount) ∧
      ((table.apply item).1 = false → (table.apply item).2 = table) ∧
      ((table.apply item).1 = true →
        (∀ bucket, bucket ≠ item.bucket →
          (table.apply item).2.view? bucket = table.view? bucket) ∧
        ∃ before after, table.view? item.bucket = some before ∧
          (table.apply item).2.view? item.bucket = some after ∧
          (∀ host, host ≠ item.host → after.weights[host]? = before.weights[host]?) ∧
          after.order.Perm before.order ∧
          after.order.filter (· != item.host) = before.order.filter (· != item.host)) := by
  have covers : table.Covers hostCount bucketCount :=
    reached ▸ (covers_initial hostCount bucketCount).applyAll items
  have counted := covers.apply_fst item
  refine ⟨?_, ?_, ?_⟩
  · rw [counted]
    simp [Feedback.isWithin]
  · intro refused
    rw [covers.apply_of_not_isWithin (by simp [← counted, refused])]
  · intro accepted
    obtain ⟨before, has, applied⟩ := covers.apply_of_isWithin (counted ▸ accepted)
    have known : item.host ∈ before.order := by
      have within : item.isWithin hostCount bucketCount = true := counted ▸ accepted
      simp only [Feedback.isWithin, Bool.and_eq_true, decide_eq_true_eq] at within
      exact (covers.of_view? has).mem_order_iff.mpr within.2
    refine ⟨fun bucket different => view?_apply_of_ne table different, before,
      before.updated item.host item.amount, has, ?_, ?_, ?_, ?_⟩
    · rw [applied]
      exact view?_store_self _ (lt_bucketCount_of_view? has)
    · intro host different
      exact List.getElem?_set_ne different.symm
    · exact BucketView.reorder_perm known
    · exact BucketView.reorder_filter_ne known

/-- A weight that is not a number keeps a bucket from being ranked, but not reports from being
counted or refused as a whole. -/
theorem apply_is_all_or_nothing_beside_undefined :
    ∃ table : RoutingTable Float,
      (initial 3 2).applyAll [⟨1, 1, 0 / 0⟩, ⟨2, 1, 4⟩, ⟨3, 0, 1⟩, ⟨0, 1, -2⟩] = table ∧
      (table.view? 1).map (·.isRanked) = some false ∧
      (table.apply ⟨1, 1, 6⟩).1 = true ∧
      (table.apply ⟨1, 1, 6⟩).2.view? 0 = table.view? 0 ∧
      (table.apply ⟨3, 1, 6⟩).2 = table := by
  have counted := apply_is_all_or_nothing
    (rfl : (initial 3 2).applyAll [⟨1, 1, 0 / 0⟩, ⟨2, 1, 4⟩, ⟨3, 0, 1⟩, ⟨0, 1, -2⟩] =
      ((initial 3 2).applyAll [⟨1, 1, 0 / 0⟩, ⟨2, 1, 4⟩, ⟨3, 0, 1⟩, ⟨0, 1, -2⟩] :
        RoutingTable Float))
  have accepted := (counted ⟨1, 1, 6⟩).1.mpr (by decide)
  have refused := (counted ⟨3, 1, 6⟩).2.1
  refine ⟨_, rfl, by decide, accepted, ?_, refused (by decide)⟩
  exact ((counted ⟨1, 1, 6⟩).2.2 accepted).1 0 (by decide)

end RoutingTable

end CacheRouting
