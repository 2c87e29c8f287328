import CacheRouting.Proofs.Auto.Dispatch

/-!
# What readers see

A reader that loads a bucket sees it as some of the reports on it have left it:
those sent first.  Later readers see no fewer of them, and a reader that comes
after a sync has been answered sees all that were sent before the sync.  When
nothing is pending the published table has everything, and no trace is left of
how much room the mailbox had.
-/

namespace CacheRouting

namespace Dispatch

variable {W : Type}

def finished (sent : List (Message W)) (dispatch : Dispatch W) : List (Message W) :=
  sent.take (sent.length - dispatch.pending.length)

/-- The reports on a bucket that a reader sees, given all messages that have been sent. -/
def seen (hostCount bucketCount bucket : Nat) (sent : List (Message W))
    (dispatch : Dispatch W) : List (Feedback W) :=
  RoutingTable.reportsOn hostCount bucketCount bucket (reportsIn (dispatch.finished sent))

theorem reportsOn_mono {hostCount bucketCount bucket : Nat} {first second : List (Message W)}
    (isPrefix : first <+: second) :
    RoutingTable.reportsOn hostCount bucketCount bucket (reportsIn first) <+:
      RoutingTable.reportsOn hostCount bucketCount bucket (reportsIn second) :=
  (reportsIn_mono isPrefix).filter _

theorem seen_prefix_sent (hostCount bucketCount bucket : Nat) (sent : List (Message W))
    (dispatch : Dispatch W) :
    dispatch.seen hostCount bucketCount bucket sent <+:
      RoutingTable.reportsOn hostCount bucketCount bucket (reportsIn sent) :=
  reportsOn_mono (List.take_prefix ..)

variable [Weight W]

theorem Follows.finished_eq {start : RoutingTable W} {sent done : List (Message W)}
    {dispatch : Dispatch W} (follows : Follows start sent done dispatch) :
    dispatch.finished sent = done := by
  have lengthEq := congrArg List.length follows.sent_eq
  rw [List.length_append] at lengthEq
  have doneLength : sent.length - dispatch.pending.length = done.length := by omega
  rw [finished, doneLength, follows.sent_eq, List.take_left]

/-- A run from the beginning follows what is sent in its course. -/
theorem follows_of_run? {hostCount bucketCount capacity : Nat} {actions : List (Action W)}
    {dispatch : Dispatch W}
    (ran : (initial hostCount bucketCount capacity).run? actions = some dispatch) :
    Follows (RoutingTable.initial hostCount bucketCount) (sent actions)
      (dispatch.finished (sent actions)) dispatch := by
  obtain ⟨done, -, follows⟩ := (follows_initial hostCount bucketCount capacity).run?
    (RoutingTable.covers_initial hostCount bucketCount) ran
  rw [List.nil_append] at follows
  rwa [follows.finished_eq]

theorem finished_mono {hostCount bucketCount capacity : Nat} {actions later : List (Action W)}
    {dispatch reached : Dispatch W}
    (ran : (initial hostCount bucketCount capacity).run? actions = some dispatch)
    (ranOn : dispatch.run? later = some reached) :
    dispatch.finished (sent actions) <+: reached.finished (sent (actions ++ later)) := by
  obtain ⟨done, isPrefix, follows⟩ :=
    (follows_of_run? ran).run? (RoutingTable.covers_initial hostCount bucketCount) ranOn
  rw [← sent_append] at follows
  rwa [follows.finished_eq]

/-- A bucket is published as the reports that its readers see have left it. -/
theorem load?_eq {hostCount bucketCount capacity : Nat} {actions : List (Action W)}
    {dispatch : Dispatch W}
    (ran : (initial hostCount bucketCount capacity).run? actions = some dispatch) (bucket : Nat) :
    dispatch.load? bucket = ((RoutingTable.initial hostCount bucketCount).applyAll
      (dispatch.seen hostCount bucketCount bucket (sent actions))).view? bucket := by
  rw [load?, (follows_of_run? ran).published_eq]
  exact (RoutingTable.covers_initial hostCount bucketCount).view?_applyAll rfl _

/-- When a sync has been answered, the worker is done with all that was sent before it. -/
theorem Follows.prefix_of_answered {start : RoutingTable W} {sent done before after : List (Message W)}
    {number : Nat} {dispatch : Dispatch W} (follows : Follows start sent done dispatch)
    (syncSent : sent = before ++ .sync number :: after)
    (answered : (syncsIn before).count number < dispatch.answered.count number) :
    before <+: done := by
  have donePrefix : done <+: sent := follows.sent_eq ▸ List.prefix_append ..
  have beforePrefix : before <+: sent := syncSent ▸ List.prefix_append ..
  rcases List.prefix_or_prefix_of_prefix donePrefix beforePrefix with shorter | longer
  · -- then the sync would have been answered only as often as it was asked before
    have countLe := ((shorter.filterMap _).sublist : (syncsIn done).Sublist _).count_le number
    rw [follows.answered_eq, List.count_reverse] at answered
    exact absurd (Nat.lt_of_lt_of_le answered countLe) (Nat.lt_irrefl _)
  · exact longer

/-- With nothing pending, the tables are those that all reports sent have made, and every sync
has been answered. -/
theorem Follows.table_of_pending_eq_nil {start : RoutingTable W} {sent done : List (Message W)}
    {dispatch : Dispatch W} (follows : Follows start sent done dispatch)
    (drained : dispatch.pending = []) :
    dispatch.published = dispatch.table ∧ dispatch.table = start.applyAll (reportsIn sent) ∧
      dispatch.answered = (syncsIn sent).reverse := by
  have sentEq := follows.sent_eq
  rw [drained, List.append_nil] at sentEq
  have handEq : dispatch.hand = .empty := by
    have noneInHand := (List.append_eq_nil_iff.mp drained).1
    cases handIs : dispatch.hand with
    | empty => rfl
    | holding message => simp [handIs, Hand.messages] at noneInHand
    | counted item => simp [handIs, Hand.messages] at noneInHand
  have tableEq := follows.table_eq
  rw [handEq] at tableEq
  refine ⟨tableEq.symm, ?_, ?_⟩
  · rw [sentEq, ← follows.published_eq]
    exact tableEq
  · rw [sentEq]
    exact follows.answered_eq

/-- An upper bound of the steps the worker has still to make. -/
def stepsLeft (dispatch : Dispatch W) : Nat :=
  3 * dispatch.mailbox.queue.length +
    match dispatch.hand with
    | .empty => 0
    | .holding _ => 2
    | .counted _ => 1

omit [Weight W] in
@[simp]
theorem stepsLeft_of_empty {dispatch : Dispatch W} (isEmpty : dispatch.hand = .empty) :
    dispatch.stepsLeft = 3 * dispatch.mailbox.queue.length := by
  simp [stepsLeft, isEmpty]

/-- While something is pending the worker can make a step, and has fewer left after it. -/
theorem exists_step?_of_pending {dispatch : Dispatch W} (pends : dispatch.pending ≠ []) :
    ∃ next, dispatch.step? = some next ∧ next.stepsLeft < dispatch.stepsLeft := by
  cases handEq : dispatch.hand with
  | empty =>
      cases taken : dispatch.mailbox.take? with
      | none =>
          have queueEq := Mailbox.take?_eq_none_iff.mp taken
          simp [pending, handEq, Hand.messages, queueEq] at pends
      | some result =>
          obtain ⟨message, mailbox⟩ := result
          have queueEq := congrArg List.length (Mailbox.queue_of_take? taken)
          rw [List.length_cons] at queueEq
          refine ⟨{ dispatch with mailbox, hand := .holding message }, ?_, ?_⟩
          · simp only [step?, handEq, takeUp?, taken, Option.map_some]
          · simp only [stepsLeft, handEq]
            omega
  | holding message =>
      cases message with
      | feedback item =>
          refine ⟨dispatch.count item, by simp only [step?, handEq], ?_⟩
          by_cases applied : (dispatch.table.apply item).1 = true
          · simp [stepsLeft, handEq, count, applied]
          · simp [stepsLeft, handEq, count, applied]
      | sync number =>
          refine ⟨dispatch.answer number, by simp only [step?, handEq], ?_⟩
          simp [stepsLeft, handEq, answer]
  | counted item =>
      refine ⟨dispatch.publish item.bucket, by simp only [step?, handEq], ?_⟩
      rw [stepsLeft_of_empty (hand_publish dispatch item.bucket), mailbox_publish]
      simp [stepsLeft, handEq]

/-- Left alone, the worker becomes done with everything. -/
theorem exists_drained (dispatch : Dispatch W) :
    ∃ steps reached, dispatch.run? (List.replicate steps .work) = some reached ∧
      reached.pending = [] := by
  induction left : dispatch.stepsLeft using Nat.strongRecOn generalizing dispatch with
  | ind left ih =>
      by_cases pends : dispatch.pending = []
      · exact ⟨0, dispatch, rfl, pends⟩
      · obtain ⟨next, steps, fewer⟩ := exists_step?_of_pending pends
        obtain ⟨count, reached, ran, drained⟩ := ih next.stepsLeft (by omega) next rfl
        refine ⟨count + 1, reached, ?_, drained⟩
        rw [List.replicate_succ, run?, show dispatch.act? .work = some next from steps]
        exact ran

/-- Nothing is lost, readers see the reports on a bucket in the order in which they were
sent, and no sync is answered before all that was sent ahead of it can be seen.  A sync has
been answered once its number has been answered more often than it was asked before.  The
worker can become done with everything, and then readers see all of its table. -/
theorem readers_follow_senders {hostCount bucketCount capacity : Nat}
    {actions later : List (Action W)} {dispatch reached : Dispatch W}
    (ran : (initial hostCount bucketCount capacity).run? actions = some dispatch)
    (ranOn : dispatch.run? later = some reached) :
    sent actions = dispatch.finished (sent actions) ++ dispatch.pending ∧
      dispatch.mailbox.queue.length ≤ max capacity 1 ∧
      (∀ bucket,
        dispatch.seen hostCount bucketCount bucket (sent actions) <+:
            RoutingTable.reportsOn hostCount bucketCount bucket (reportsIn (sent actions)) ∧
          dispatch.load? bucket = ((RoutingTable.initial hostCount bucketCount).applyAll
            (dispatch.seen hostCount bucketCount bucket (sent actions))).view? bucket ∧
          dispatch.seen hostCount bucketCount bucket (sent actions) <+:
            reached.seen hostCount bucketCount bucket (sent (actions ++ later)) ∧
          ∀ before number after, sent actions = before ++ .sync number :: after →
            (syncsIn before).count number < dispatch.answered.count number →
            RoutingTable.reportsOn hostCount bucketCount bucket (reportsIn before) <+:
              dispatch.seen hostCount bucketCount bucket (sent actions)) ∧
      (∃ steps drained, dispatch.run? (List.replicate steps .work) = some drained ∧
        drained.pending = []) ∧
      (dispatch.pending = [] →
        (∀ bucket, dispatch.load? bucket = dispatch.table.view? bucket) ∧
          dispatch.answered = (syncsIn (sent actions)).reverse ∧
          ∀ otherCapacity otherActions (other : Dispatch W),
            (initial hostCount bucketCount otherCapacity).run? otherActions = some other →
            sent otherActions = sent actions → other.pending = [] →
            other.table = dispatch.table) := by
  have follows := follows_of_run? ran
  refine ⟨follows.sent_eq, ?_, ?_, exists_drained dispatch, ?_⟩
  · have bounded := isBounded_run? (Mailbox.isBounded_empty (max capacity 1)) ran
    have fits := bounded.length_le
    omega
  · intro bucket
    refine ⟨seen_prefix_sent .., load?_eq ran bucket, reportsOn_mono (finished_mono ran ranOn), ?_⟩
    intro before number after syncSent answered
    exact reportsOn_mono (follows.prefix_of_answered syncSent answered)
  · intro drained
    obtain ⟨publishedEq, tableEq, answeredEq⟩ := follows.table_of_pending_eq_nil drained
    refine ⟨fun bucket => congrArg (·.view? bucket) publishedEq, answeredEq, ?_⟩
    intro otherCapacity otherActions other otherRan sameSent otherDrained
    obtain ⟨-, otherTableEq, -⟩ := (follows_of_run? otherRan).table_of_pending_eq_nil otherDrained
    rw [otherTableEq, tableEq, sameSent]

/-- In a mailbox of one place the second sender has to wait for the worker. -/
theorem readers_follow_senders_in_turn :
    ∃ dispatch : Dispatch Float,
      (initial 2 1 1).run? [.send (.caller 0) (.feedback ⟨1, 0, 4⟩), .wait (.caller 1), .work,
        .send (.caller 1) (.sync 7), .work, .work, .work, .work] = some dispatch ∧
      dispatch.load? 0 = dispatch.table.view? 0 ∧
      [⟨1, 0, 4⟩] <+: dispatch.seen 2 1 0 [.feedback ⟨1, 0, 4⟩, .sync 7] := by
  obtain ⟨dispatch, ran, answered, drained⟩ : ∃ dispatch : Dispatch Float,
      (initial 2 1 1).run? [.send (.caller 0) (.feedback ⟨1, 0, 4⟩), .wait (.caller 1), .work,
        .send (.caller 1) (.sync 7), .work, .work, .work, .work] = some dispatch ∧
      dispatch.answered = [7] ∧ dispatch.pending = [] := ⟨_, rfl, by decide, by decide⟩
  obtain ⟨-, -, readers, -, whenDrained⟩ := readers_follow_senders ran (rfl : dispatch.run? [] = _)
  refine ⟨dispatch, ran, (whenDrained drained).1 0, ?_⟩
  exact (readers 0).2.2.2 [.feedback ⟨1, 0, 4⟩] 7 [] rfl (by rw [answered]; decide)

end Dispatch

end CacheRouting
