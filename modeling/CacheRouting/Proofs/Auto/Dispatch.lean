import CacheRouting.Auto.Dispatch
import CacheRouting.Proofs.Auto.Mailbox
import CacheRouting.Proofs.Ranking.Table

/-!
# Runs of a dispatch

Senders send, wait for room and give up waiting, and the worker makes its steps,
in any order.  At any time the messages sent so far are those the worker is done
with, then the one it has in hand, then those in the queue; the published table
comes from the reports it is done with, and its own table is ahead of that by at
most the report in hand.
-/

namespace CacheRouting

def reportsIn {W : Type} (messages : List (Message W)) : List (Feedback W) :=
  messages.filterMap fun
    | .feedback item => some item
    | .sync _ => none

def syncsIn {W : Type} (messages : List (Message W)) : List Nat :=
  messages.filterMap fun
    | .feedback _ => none
    | .sync number => some number

section Messages

variable {W : Type}

@[simp]
theorem reportsIn_append (first second : List (Message W)) :
    reportsIn (first ++ second) = reportsIn first ++ reportsIn second :=
  List.filterMap_append ..

@[simp]
theorem syncsIn_append (first second : List (Message W)) :
    syncsIn (first ++ second) = syncsIn first ++ syncsIn second :=
  List.filterMap_append ..

@[simp]
theorem reportsIn_feedback (item : Feedback W) : reportsIn [.feedback item] = [item] :=
  rfl

@[simp]
theorem reportsIn_sync (number : Nat) : reportsIn [(.sync number : Message W)] = [] :=
  rfl

@[simp]
theorem syncsIn_feedback (item : Feedback W) : syncsIn [.feedback item] = [] :=
  rfl

@[simp]
theorem syncsIn_sync (number : Nat) : syncsIn [(.sync number : Message W)] = [number] :=
  rfl

theorem reportsIn_mono {first second : List (Message W)} (isPrefix : first <+: second) :
    reportsIn first <+: reportsIn second :=
  isPrefix.filterMap _

theorem mem_reportsIn {item : Feedback W} {messages : List (Message W)} :
    item ∈ reportsIn messages ↔ .feedback item ∈ messages := by
  rw [reportsIn, List.mem_filterMap]
  constructor
  · rintro ⟨message, member, isReport⟩
    cases message with
    | feedback other => exact Option.some.inj isReport ▸ member
    | sync number => cases isReport
  · exact fun member => ⟨_, member, rfl⟩

end Messages

namespace Hand

variable {W : Type}

def messages : Hand W → List (Message W)
  | .empty => []
  | .holding message => [message]
  | .counted item => [.feedback item]

def unpublished : Hand W → List (Feedback W)
  | .counted item => [item]
  | _ => []

end Hand

namespace Dispatch

inductive Action (W : Type)
  | send (sender : Sender) (message : Message W)
  | wait (sender : Sender)
  | forget (sender : Sender)
  | work

def sent {W : Type} (actions : List (Action W)) : List (Message W) :=
  actions.filterMap fun
    | .send _ message => some message
    | _ => none

@[simp]
theorem sent_append {W : Type} (first second : List (Action W)) :
    sent (first ++ second) = sent first ++ sent second :=
  List.filterMap_append ..

variable {W : Type} [Weight W]

def act? (dispatch : Dispatch W) : Action W → Option (Dispatch W)
  | .send sender message => dispatch.send? sender message
  | .wait sender => some (dispatch.wait sender)
  | .forget sender => some (dispatch.forget sender)
  | .work => dispatch.step?

def run? (dispatch : Dispatch W) : List (Action W) → Option (Dispatch W)
  | [] => some dispatch
  | action :: actions => (dispatch.act? action).bind (·.run? actions)

omit [Weight W] in
@[simp]
theorem hand_publish (dispatch : Dispatch W) (bucket : Nat) :
    (dispatch.publish bucket).hand = .empty := by
  unfold publish
  split <;> rfl

omit [Weight W] in
@[simp]
theorem mailbox_publish (dispatch : Dispatch W) (bucket : Nat) :
    (dispatch.publish bucket).mailbox = dispatch.mailbox := by
  unfold publish
  split <;> rfl

/-- The messages the worker is not done with. -/
def pending (dispatch : Dispatch W) : List (Message W) :=
  dispatch.hand.messages ++ dispatch.mailbox.queue

/-- What a dispatch has made of the messages sent so far: it is done with the first of
them, and the others are pending. -/
structure Follows (start : RoutingTable W) (sent done : List (Message W))
    (dispatch : Dispatch W) : Prop where
  sent_eq : sent = done ++ dispatch.pending
  published_eq : dispatch.published = start.applyAll (reportsIn done)
  table_eq : dispatch.table = dispatch.published.applyAll dispatch.hand.unpublished
  answered_eq : dispatch.answered = (syncsIn done).reverse

theorem follows_initial (hostCount bucketCount capacity : Nat) :
    Follows (RoutingTable.initial hostCount bucketCount) [] []
      (initial hostCount bucketCount capacity : Dispatch W) :=
  ⟨rfl, rfl, rfl, rfl⟩

/-- What the hand says about the messages sent and about the worker's table. -/
theorem Follows.of_hand {start : RoutingTable W} {sent done : List (Message W)}
    {dispatch : Dispatch W} {hand : Hand W} (follows : Follows start sent done dispatch)
    (handEq : dispatch.hand = hand) :
    sent = done ++ (hand.messages ++ dispatch.mailbox.queue) ∧
      dispatch.table = dispatch.published.applyAll hand.unpublished := by
  subst handEq
  exact ⟨follows.sent_eq, follows.table_eq⟩

section Steps

variable {start : RoutingTable W} {sent done : List (Message W)} {dispatch next : Dispatch W}

theorem Follows.send? (follows : Follows start sent done dispatch) {sender : Sender}
    {message : Message W} (sends : dispatch.send? sender message = some next) :
    Follows start (sent ++ [message]) done next := by
  obtain ⟨mailbox, mailboxSends, rfl⟩ := Option.map_eq_some_iff.mp sends
  have queueEq := Mailbox.queue_of_send? mailboxSends
  refine ⟨?_, follows.published_eq, follows.table_eq, follows.answered_eq⟩
  calc
    sent ++ [message] = done ++ (dispatch.hand.messages ++ dispatch.mailbox.queue) ++ [message] :=
      congrArg (· ++ [message]) follows.sent_eq
    _ = done ++ (dispatch.hand.messages ++ mailbox.queue) := by
      rw [queueEq, List.append_assoc, List.append_assoc]

theorem Follows.wait (follows : Follows start sent done dispatch) (sender : Sender) :
    Follows start sent done (dispatch.wait sender) := by
  refine ⟨?_, follows.published_eq, follows.table_eq, follows.answered_eq⟩
  rw [follows.sent_eq, pending, pending, Dispatch.wait, Mailbox.queue_wait]

theorem Follows.forget (follows : Follows start sent done dispatch) (sender : Sender) :
    Follows start sent done (dispatch.forget sender) :=
  ⟨follows.sent_eq, follows.published_eq, follows.table_eq, follows.answered_eq⟩

theorem Follows.takeUp? (follows : Follows start sent done dispatch)
    (isEmpty : dispatch.hand = .empty) (takes : dispatch.takeUp? = some next) :
    Follows start sent done next := by
  obtain ⟨⟨message, mailbox⟩, mailboxTakes, rfl⟩ := Option.map_eq_some_iff.mp takes
  obtain ⟨sentEq, tableEq⟩ := follows.of_hand isEmpty
  refine ⟨?_, follows.published_eq, tableEq, follows.answered_eq⟩
  rw [sentEq, Mailbox.queue_of_take? mailboxTakes]
  rfl

/-- Counting a report puts the table ahead of the published one, or ends the matter. -/
theorem Follows.count {hostCount bucketCount : Nat} {item : Feedback W}
    (follows : Follows start sent done dispatch) (covers : start.Covers hostCount bucketCount)
    (holds : dispatch.hand = .holding (.feedback item)) :
    ∃ doneNow, done <+: doneNow ∧ Follows start sent doneNow (dispatch.count item) := by
  have publishedCovers : dispatch.published.Covers hostCount bucketCount := by
    rw [follows.published_eq]
    exact covers.applyAll _
  obtain ⟨sentEq, tableEq⟩ := follows.of_hand holds
  have same : dispatch.table = dispatch.published := tableEq
  by_cases within : item.isWithin hostCount bucketCount = true
  · refine ⟨done, List.prefix_rfl, ?_⟩
    have applied : (dispatch.table.apply item).1 = true := by
      rw [same, publishedCovers.apply_fst, within]
    have handEq : (dispatch.count item).hand = .counted item := by
      simp [Dispatch.count, applied]
    refine ⟨?_, follows.published_eq, ?_, follows.answered_eq⟩
    · rw [pending, handEq]
      exact sentEq
    · rw [handEq]
      exact congrArg (fun table => (table.apply item).2) same
  · refine ⟨done ++ [.feedback item], List.prefix_append .., ?_⟩
    have unchanged : dispatch.table.apply item = (false, dispatch.table) := by
      rw [same, publishedCovers.apply_of_not_isWithin within]
    have handEq : (dispatch.count item).hand = .empty := by
      simp [Dispatch.count, unchanged]
    refine ⟨?_, ?_, ?_, ?_⟩
    · rw [pending, handEq, List.append_assoc]
      exact sentEq
    · have publishedEq := follows.published_eq
      rw [same] at unchanged
      rw [reportsIn_append, RoutingTable.applyAll_append, ← publishedEq, reportsIn_feedback]
      exact (congrArg Prod.snd unchanged).symm
    · rw [handEq]
      exact (congrArg Prod.snd unchanged).trans same
    · rw [syncsIn_append, syncsIn_feedback, List.append_nil]
      exact follows.answered_eq

theorem Follows.answer {number : Nat} (follows : Follows start sent done dispatch)
    (holds : dispatch.hand = .holding (.sync number)) :
    Follows start sent (done ++ [.sync number]) (dispatch.answer number) := by
  obtain ⟨sentEq, tableEq⟩ := follows.of_hand holds
  refine ⟨?_, ?_, tableEq, ?_⟩
  · rw [List.append_assoc]
    exact sentEq
  · rw [reportsIn_append, reportsIn_sync, List.append_nil]
    exact follows.published_eq
  · rw [syncsIn_append, syncsIn_sync, List.reverse_append, ← follows.answered_eq]
    rfl

/-- Publishing the bucket of the report in hand makes up for the whole report. -/
theorem Follows.publish {item : Feedback W} (follows : Follows start sent done dispatch)
    (counted : dispatch.hand = .counted item) :
    Follows start sent (done ++ [.feedback item]) (dispatch.publish item.bucket) := by
  obtain ⟨sentEq, isAhead⟩ := follows.of_hand counted
  have tableEq : dispatch.table = (dispatch.published.apply item).2 := isAhead
  have published : dispatch.publish item.bucket =
      { dispatch with published := dispatch.table, hand := .empty } := by
    rw [Dispatch.publish]
    cases has : dispatch.table.view? item.bucket with
    | some view =>
        have hasAfter := tableEq ▸ has
        simp only [RoutingTable.store_of_view?_apply hasAfter, ← tableEq]
    | none =>
        have hasNotAfter := tableEq ▸ has
        simp only [tableEq, RoutingTable.apply_of_view?_apply_eq_none hasNotAfter]
  rw [published]
  refine ⟨?_, ?_, rfl, ?_⟩
  · rw [List.append_assoc]
    exact sentEq
  · rw [reportsIn_append, RoutingTable.applyAll_append, ← follows.published_eq]
    exact tableEq
  · rw [syncsIn_append, syncsIn_feedback, List.append_nil]
    exact follows.answered_eq

/-- Whatever the worker does next, it stays done with what it was done with. -/
theorem Follows.step? {hostCount bucketCount : Nat} (follows : Follows start sent done dispatch)
    (covers : start.Covers hostCount bucketCount) (steps : dispatch.step? = some next) :
    ∃ doneNow, done <+: doneNow ∧ Follows start sent doneNow next := by
  unfold Dispatch.step? at steps
  split at steps
  · next isEmpty => exact ⟨done, List.prefix_rfl, follows.takeUp? isEmpty steps⟩
  · next item holds =>
    cases steps
    exact follows.count covers holds
  · next number holds =>
    cases steps
    exact ⟨_, List.prefix_append .., follows.answer holds⟩
  · next item counted =>
    cases steps
    exact ⟨_, List.prefix_append .., follows.publish counted⟩

theorem Follows.act? {hostCount bucketCount : Nat} {action : Action W}
    (follows : Follows start sent done dispatch) (covers : start.Covers hostCount bucketCount)
    (acts : dispatch.act? action = some next) :
    ∃ doneNow, done <+: doneNow ∧ Follows start (sent ++ Dispatch.sent [action]) doneNow next := by
  cases action with
  | send sender message => exact ⟨done, List.prefix_rfl, follows.send? acts⟩
  | wait sender =>
      cases acts
      exact ⟨done, List.prefix_rfl, (List.append_nil sent).symm ▸ follows.wait sender⟩
  | forget sender =>
      cases acts
      exact ⟨done, List.prefix_rfl, (List.append_nil sent).symm ▸ follows.forget sender⟩
  | work =>
      obtain ⟨doneNow, isPrefix, followsNow⟩ := follows.step? covers acts
      exact ⟨doneNow, isPrefix, (List.append_nil sent).symm ▸ followsNow⟩

end Steps

/-- In the course of a run the worker becomes done with more and more of what is sent. -/
theorem Follows.run? {hostCount bucketCount : Nat} {start : RoutingTable W}
    {sent done : List (Message W)} {dispatch reached : Dispatch W} {actions : List (Action W)}
    (follows : Follows start sent done dispatch) (covers : start.Covers hostCount bucketCount)
    (ran : dispatch.run? actions = some reached) :
    ∃ doneNow, done <+: doneNow ∧ Follows start (sent ++ Dispatch.sent actions) doneNow reached := by
  induction actions generalizing dispatch sent done with
  | nil =>
      cases ran
      exact ⟨done, List.prefix_rfl, (List.append_nil sent).symm ▸ follows⟩
  | cons action actions ih =>
      obtain ⟨next, acts, goesOn⟩ := Option.bind_eq_some_iff.mp ran
      obtain ⟨doneNext, prefixNext, followsNext⟩ := follows.act? covers acts
      obtain ⟨doneNow, prefixNow, followsNow⟩ := ih followsNext goesOn
      refine ⟨doneNow, prefixNext.trans prefixNow, ?_⟩
      rwa [List.append_assoc, ← sent_append] at followsNow

/-- Both tables come from reports that have been sent, in the order of sending. -/
theorem Follows.exists_prefixes {start : RoutingTable W} {sent done : List (Message W)}
    {dispatch : Dispatch W} (follows : Follows start sent done dispatch) :
    (∃ items, items <+: reportsIn sent ∧ dispatch.published = start.applyAll items) ∧
      ∃ items, items <+: reportsIn sent ∧ dispatch.table = start.applyAll items := by
  have unpublishedPrefix : dispatch.hand.unpublished <+: reportsIn dispatch.hand.messages := by
    cases dispatch.hand with
    | empty => exact List.nil_prefix
    | holding message => exact List.nil_prefix
    | counted item => exact List.prefix_rfl
  refine ⟨⟨reportsIn done, ?_, follows.published_eq⟩,
    reportsIn done ++ dispatch.hand.unpublished, ?_, ?_⟩
  · rw [follows.sent_eq]
    exact reportsIn_mono (List.prefix_append ..)
  · rw [follows.sent_eq, pending, reportsIn_append, reportsIn_append]
    exact (List.prefix_append_right_inj _).mpr (unpublishedPrefix.trans (List.prefix_append ..))
  · rw [RoutingTable.applyAll_append, ← follows.published_eq]
    exact follows.table_eq

theorem isBounded_act? {capacity : Nat} {dispatch next : Dispatch W} {action : Action W}
    (bounded : dispatch.mailbox.IsBounded capacity) (acts : dispatch.act? action = some next) :
    next.mailbox.IsBounded capacity := by
  cases action with
  | send sender message =>
      obtain ⟨mailbox, mailboxSends, rfl⟩ := Option.map_eq_some_iff.mp acts
      exact bounded.send? mailboxSends
  | wait sender =>
      cases acts
      exact bounded.wait sender
  | forget sender =>
      cases acts
      exact bounded.forget sender
  | work =>
      change dispatch.step? = some next at acts
      unfold step? at acts
      split at acts
      · obtain ⟨⟨message, mailbox⟩, mailboxTakes, rfl⟩ := Option.map_eq_some_iff.mp acts
        exact bounded.take? mailboxTakes
      · cases acts
        exact bounded
      · cases acts
        exact bounded
      · cases acts
        rwa [mailbox_publish]

theorem isBounded_run? {capacity : Nat} {dispatch reached : Dispatch W} {actions : List (Action W)}
    (bounded : dispatch.mailbox.IsBounded capacity) (ran : dispatch.run? actions = some reached) :
    reached.mailbox.IsBounded capacity := by
  induction actions generalizing dispatch with
  | nil =>
      cases ran
      exact bounded
  | cons action actions ih =>
      obtain ⟨next, acts, goesOn⟩ := Option.bind_eq_some_iff.mp ran
      exact ih (isBounded_act? bounded acts) goesOn

end Dispatch

end CacheRouting
