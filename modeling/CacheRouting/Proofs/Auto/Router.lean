import CacheRouting.Auto.Router
import CacheRouting.Proofs.Auto.Dispatch
import CacheRouting.Proofs.Ranking.Double

/-!
# Runs of an auto scheduler

Callers report on hosts by address and discovery by index; an amount that is not
finite and an address that is not known are dropped before anything is sent.  So
the tables only ever count finite amounts, and every bucket stays a ranking of
all hosts.
-/

namespace CacheRouting

def Report.item? {W : Type} : Report W → Option (Feedback W)
  | .unknownHost => none
  | .notFinite => none
  | .feedback item => some item

namespace AutoRouter

inductive Action (W : Type)
  | report (caller : Nat) (address key : String) (amount : W)
  | discover (host : Nat) (key : String) (amount : W)
  | sync (caller number : Nat)
  | wait (sender : Sender)
  | forget (sender : Sender)
  | work

variable {W : Type} [Weight W]

def command? (router : AutoRouter W) : Action W → Option (Dispatch.Action W)
  | .report caller address key amount =>
      (router.reportOn address key amount).item?.map fun item =>
        .send (.caller caller) (.feedback item)
  | .discover host key amount =>
      (router.reportAt host key amount).item?.map fun item => .send .discovery (.feedback item)
  | .sync caller number => some (.send (.caller caller) (.sync number))
  | .wait sender => some (.wait sender)
  | .forget sender => some (.forget sender)
  | .work => some .work

def act? (router : AutoRouter W) (action : Action W) : Option (AutoRouter W) :=
  match router.command? action with
  | none => some router
  | some command => (router.dispatch.act? command).map fun dispatch => { router with dispatch }

def run? (router : AutoRouter W) : List (Action W) → Option (AutoRouter W)
  | [] => some router
  | action :: actions => (router.act? action).bind (·.run? actions)

theorem command?_setDispatch (router : AutoRouter W) (dispatch : Dispatch W) (action : Action W) :
    { router with dispatch }.command? action = router.command? action := by
  cases action <;> rfl

/-- A run changes nothing but the dispatch, which runs through what the actions ask of
it. -/
theorem run?_eq (router : AutoRouter W) (actions : List (Action W)) :
    router.run? actions =
      (router.dispatch.run? (actions.filterMap router.command?)).map
        fun dispatch => { router with dispatch } := by
  induction actions generalizing router with
  | nil => rfl
  | cons action actions ih =>
      rw [run?, act?, List.filterMap_cons]
      cases router.command? action with
      | none => exact ih router
      | some command =>
          cases acted : router.dispatch.act? command with
          | none => simp [Dispatch.run?, acted]
          | some dispatch =>
              have same : { router with dispatch }.command? = router.command? :=
                funext (command?_setDispatch router dispatch)
              simp [Dispatch.run?, acted, ih, same]

theorem dispatch_of_run? {router reached : AutoRouter W} {actions : List (Action W)}
    (ran : router.run? actions = some reached) :
    reached = { router with dispatch := reached.dispatch } ∧
      router.dispatch.run? (actions.filterMap router.command?) = some reached.dispatch := by
  rw [run?_eq] at ran
  obtain ⟨dispatch, dispatchRan, rfl⟩ := Option.map_eq_some_iff.mp ran
  exact ⟨rfl, dispatchRan⟩

/-- Only finite amounts are sent. -/
theorem isFinite_of_command? {router : AutoRouter W} {action : Action W} {sender : Sender}
    {item : Feedback W} (sends : router.command? action = some (.send sender (.feedback item))) :
    Weight.isFinite item.amount = true := by
  have ofReportAt : ∀ {host key amount}, (router.reportAt host key amount).item? = some item →
      Weight.isFinite item.amount = true := by
    intro host key amount reported
    unfold reportAt at reported
    split at reported
    · next finite =>
      cases reported
      exact finite
    · cases reported
  cases action with
  | report caller address key amount =>
      obtain ⟨found, reported, isSent⟩ := Option.map_eq_some_iff.mp sends
      cases isSent
      unfold reportOn at reported
      split at reported
      · cases reported
      · exact ofReportAt reported
  | discover host key amount =>
      obtain ⟨found, reported, isSent⟩ := Option.map_eq_some_iff.mp sends
      cases isSent
      exact ofReportAt reported
  | sync caller number => cases sends
  | wait sender => cases sends
  | forget sender => cases sends
  | work => cases sends

theorem isFinite_of_mem_sent {router : AutoRouter W} {actions : List (Action W)}
    {item : Feedback W}
    (member : item ∈ reportsIn (Dispatch.sent (actions.filterMap router.command?))) :
    Weight.isFinite item.amount = true := by
  obtain ⟨command, isCommand, isSent⟩ := List.mem_filterMap.mp (mem_reportsIn.mp member)
  obtain ⟨action, -, asks⟩ := List.mem_filterMap.mp isCommand
  cases command with
  | send sender message =>
      cases isSent
      exact isFinite_of_command? asks
  | wait sender => cases isSent
  | forget sender => cases isSent
  | work => cases isSent

/-- A scheduler that has been built covers at least one host, with an accepted number of
buckets. -/
theorem build_eq_ok {hosts : List Host} {bucketCount : Nat} {method : HashMethod}
    {options : AutoOptions} {hasRuntime : Bool} {router : AutoRouter W}
    (built : build hosts bucketCount method options hasRuntime = .ok router) :
    Config.acceptsBucketCount bucketCount = true ∧ hosts ≠ [] ∧
      router = ⟨hosts, bucketCount, method,
        Dispatch.initial hosts.length bucketCount options.mailbox⟩ := by
  unfold build at built
  split at built
  · cases built
  · next accepted =>
    split at built
    · cases built
    · next notEmpty =>
      split at built
      · cases built
      · split at built
        · cases built
        · split at built
          · cases built
          · cases built
            exact ⟨by simpa using accepted, by simpa using notEmpty, rfl⟩

/-- What holds of the first view of a bucket and is kept by finite reports holds of all
views, published or not. -/
theorem holds_of_run? {hosts : List Host} {bucketCount : Nat} {method : HashMethod}
    {options : AutoOptions} {hasRuntime : Bool} {router reached : AutoRouter W}
    {actions : List (Action W)} {holds : BucketView W → Prop}
    (built : build hosts bucketCount method options hasRuntime = .ok router)
    (ran : router.run? actions = some reached)
    (ofInitial : holds (BucketView.initial hosts.length))
    (ofReport : ∀ view host amount, Weight.isFinite amount = true → holds view →
      holds (view.report host amount).2) :
    reached.dispatch.table.Holds holds bucketCount ∧
      reached.dispatch.published.Holds holds bucketCount := by
  obtain ⟨-, -, routerEq⟩ := build_eq_ok built
  obtain ⟨-, dispatchRan⟩ := dispatch_of_run? ran
  have dispatchEq : router.dispatch = Dispatch.initial hosts.length bucketCount options.mailbox :=
    congrArg AutoRouter.dispatch routerEq
  rw [dispatchEq] at dispatchRan
  obtain ⟨done, -, follows⟩ := (Dispatch.follows_initial hosts.length bucketCount _).run?
    (RoutingTable.covers_initial hosts.length bucketCount) dispatchRan
  rw [List.nil_append] at follows
  have ofPrefix : ∀ items,
      items <+: reportsIn (Dispatch.sent (actions.filterMap router.command?)) →
      ((RoutingTable.initial hosts.length bucketCount).applyAll items).Holds holds bucketCount := by
    intro items isPrefix
    refine (RoutingTable.holds_initial bucketCount ofInitial).applyAll ?_
    intro item member view viewHolds
    have finite := isFinite_of_mem_sent (isPrefix.subset member)
    exact ofReport view item.host item.amount finite viewHolds
  obtain ⟨⟨shown, shownPrefix, publishedEq⟩, counted, countedPrefix, tableEq⟩ :=
    follows.exists_prefixes
  rw [publishedEq, tableEq]
  exact ⟨ofPrefix counted countedPrefix, ofPrefix shown shownPrefix⟩

/-- A table whose views are rankings of all hosts. -/
abbrev IsRanked (table : RoutingTable W) (hostCount bucketCount : Nat) : Prop :=
  table.Holds (·.IsRanking hostCount) bucketCount

theorem isRanked_of_run? [LawfulWeight W] {hosts : List Host} {bucketCount : Nat}
    {method : HashMethod} {options : AutoOptions} {hasRuntime : Bool}
    {router reached : AutoRouter W} {actions : List (Action W)}
    (built : build hosts bucketCount method options hasRuntime = .ok router)
    (ran : router.run? actions = some reached) :
    IsRanked reached.dispatch.table hosts.length bucketCount ∧
      IsRanked reached.dispatch.published hosts.length bucketCount := by
  refine holds_of_run? built ran (BucketView.isRanking_initial hosts.length) ?_
  intro view host amount finite ranking
  exact ranking.report host finite

/-- Every bucket, published or not, is a ranking of all hosts by weights that are not NaN,
whatever has been reported and however far the worker has come. -/
theorem views_are_rankings {hosts : List Host} {bucketCount : Nat} {method : HashMethod}
    {options : AutoOptions} {hasRuntime : Bool} {router reached : AutoRouter Float}
    {actions : List (Action Float)}
    (built : build hosts bucketCount method options hasRuntime = .ok router)
    (ran : router.run? actions = some reached) {bucket : Nat} (known : bucket < bucketCount)
    {table : RoutingTable Float}
    (isTable : table = reached.dispatch.table ∨ table = reached.dispatch.published) :
    ∃ view, table.view? bucket = some view ∧
      view.order.Perm (List.range hosts.length) ∧
      view.weights.length = hosts.length ∧
      (∀ weight ∈ view.weights, weight.isNaN = false) ∧
      view.order.Pairwise (fun first second => view.weightOf second ≤ view.weightOf first) ∧
      view.isRanked = true := by
  obtain ⟨tableRanked, publishedRanked⟩ := isRanked_of_run? built ran
  have ranked : IsRanked table hosts.length bucketCount := by
    rcases isTable with isCounted | isPublished
    · exact isCounted ▸ tableRanked
    · exact isPublished ▸ publishedRanked
  obtain ⟨view, has, ranking⟩ := ranked.exists_view? known
  refine ⟨view, has, ranking.perm, ranking.length_weights, ?_, ?_, ?_⟩
  · intro weight member
    exact (Double.isNumber_iff weight).mp (ranking.numbers weight member)
  · exact ranking.ranked.imp of_decide_eq_true
  · exact (BucketView.isRanked_iff_pairwise view).mpr ranking.ranked

/-- The weight of a host that is reported on so badly twice is no longer finite. -/
theorem views_are_rankings_after_overflow :
    ∃ reached : AutoRouter Float,
      run? ⟨[⟨"a:1"⟩, ⟨"b:1"⟩], 1, .crc32, Dispatch.initial 2 1 1⟩
        [.report 0 "a:1" "@" (Float.ofBits 0xffefffffffffffff), .report 0 "b:1" "@" (0 / 0), .work,
          .discover 0 "@" (Float.ofBits 0xffefffffffffffff), .work, .work, .work, .work, .work] =
        some reached ∧
      ∃ view, reached.dispatch.published.view? 0 = some view ∧
        view.weights = [-1 / 0, 0] ∧ view.isRanked = true := by
  have built : build [⟨"a:1"⟩, ⟨"b:1"⟩] 1 .crc32 ⟨0, 1, false⟩ true =
      .ok (⟨[⟨"a:1"⟩, ⟨"b:1"⟩], 1, .crc32, Dispatch.initial 2 1 1⟩ : AutoRouter Float) := rfl
  obtain ⟨reached, ran, weights⟩ : ∃ reached : AutoRouter Float,
      run? ⟨[⟨"a:1"⟩, ⟨"b:1"⟩], 1, .crc32, Dispatch.initial 2 1 1⟩
        [.report 0 "a:1" "@" (Float.ofBits 0xffefffffffffffff), .report 0 "b:1" "@" (0 / 0), .work,
          .discover 0 "@" (Float.ofBits 0xffefffffffffffff), .work, .work, .work, .work, .work] =
        some reached ∧
      (reached.dispatch.published.view? 0).map (·.weights) = some [-1 / 0, 0] :=
    ⟨_, rfl, by decide⟩
  obtain ⟨view, has, -, -, -, -, ranked⟩ :=
    views_are_rankings built ran Nat.zero_lt_one (Or.inr rfl)
  refine ⟨reached, ran, view, has, ?_, ranked⟩
  rw [has] at weights
  exact Option.some.inj weights

end AutoRouter

end CacheRouting
