import CacheRouting.Proofs.Auto.Promptness
import CacheRouting.Proofs.Auto.Rounds

/-!
# Rounds outlive their passes

A call that breaks off takes its pass with it and nothing else: the rounds hear of
it and begin the next pass when it is due, with all hosts before it.  So passes
follow each other for as long as time goes on, the last check is the end of the
latest pass that was completed, and what a broken pass has reported is counted
like any other report.
-/

namespace CacheRouting

namespace Watch

variable {router : AutoRouter Float}

theorem queue_act_work (watch : Watch) :
    (watch.act .work).engine.router.dispatch.mailbox.queue =
      watch.engine.router.dispatch.mailbox.queue.tail := by
  cases works : watch.engine.router.dispatch.work? with
  | none =>
      have stays : (watch.act .work).engine = watch.engine := by
        simp [Watch.act, Engine.act, Engine.work?, works]
      have isEmpty : watch.engine.router.dispatch.mailbox.queue = [] := by
        unfold Dispatch.work? at works
        split at works
        · next takesNone => exact Mailbox.take?_eq_none_iff.mp takesNone
        · cases works
      rw [stays, isEmpty, List.tail_nil]
  | some dispatch =>
      have nextEq : (watch.act .work).engine = watch.engine.setDispatch dispatch := by
        simp [Watch.act, Engine.act, Engine.work?, works]
      obtain ⟨message, mailbox, takes, mailboxEq⟩ := Dispatch.queue_of_work? works
      rw [nextEq, Mailbox.queue_of_take? takes, List.tail_cons, ← mailboxEq]
      rfl

theorem sent_act_work (watch : Watch) : (watch.act .work).sent = watch.sent := by
  have queueEq : (watch.engine.act .work).router.dispatch.mailbox.queue =
      watch.engine.router.dispatch.mailbox.queue.tail := queue_act_work watch
  have noneSent : watch.engine.sentBetween (watch.engine.act .work) = [] := by
    rw [Engine.sentBetween, queueEq, List.drop_eq_nil_iff, List.length_tail]
    exact Nat.sub_le ..
  rw [sent_act, noneSent, List.append_nil]

/-- The worker can count and publish all that has been sent. -/
theorem IsServed.exists_drained {watch : Watch} (served : watch.IsServed router) :
    ∃ steps, (watch.run (List.replicate steps .work)).engine.router.dispatch.published =
      (RoutingTable.initial router.hosts.length router.bucketCount).applyAll
        (reportsIn watch.sent) := by
  induction queued : watch.engine.router.dispatch.mailbox.queue.length generalizing watch with
  | zero =>
      have drained : watch.engine.router.dispatch.pending = [] := by
        rw [Dispatch.pending, served.hand_eq, List.length_eq_zero_iff.mp queued]
        rfl
      obtain ⟨done, follows⟩ := served.follows
      obtain ⟨publishedEq, tableEq, -⟩ := follows.table_of_pending_eq_nil drained
      exact ⟨0, publishedEq.trans tableEq⟩
  | succ count ih =>
      have fewer : (watch.act .work).engine.router.dispatch.mailbox.queue.length = count := by
        rw [queue_act_work, List.length_tail, queued, Nat.add_sub_cancel]
      obtain ⟨steps, published⟩ := ih (served.act_of_ne_pass (by simp)) fewer
      rw [sent_act_work] at published
      exact ⟨steps + 1, published⟩

end Watch

namespace Chronicle

open PassAccount (InTurn fullPlan lastCompletion latestTick)
open Engine (Action)

variable {router : AutoRouter Float} {interval : Nat} {chronicle : Chronicle}

theorem IsTrue.recordAll (isTrue : chronicle.IsTrue router interval) (positive : 0 < interval)
    (occurrences : List Occurrence) : (chronicle.recordAll occurrences).IsTrue router interval := by
  induction occurrences generalizing chronicle with
  | nil => exact isTrue
  | cons occurrence occurrences ih => exact ih (isTrue.record positive occurrence)

def begin (router : AutoRouter Float) (script : Nat → Responder) (options : AutoOptions)
    (journal : Journal) : Chronicle :=
  start (Watch.begin router script options journal)

theorem isTrue_begin {hosts : List Host} {bucketCount : Nat} {method : HashMethod}
    {options : AutoOptions}
    (built : AutoRouter.build hosts bucketCount method options true = .ok router)
    (isOn : options.discovery = true) (hasInterval : options.interval ≠ 0)
    (script : Nat → Responder) (journal : Journal) :
    (begin router script options journal).IsTrue router options.interval := by
  have rests : (begin router script options journal).watch.engine.activity = .resting 0 := by
    simp [begin, start, Watch.begin, Watch.start, Engine.start, isOn, hasInterval]
  constructor
  case served => exact (Watch.onCourse_begin built script journal).1
  case size_eq => simp [begin, start, Watch.begin, Watch.start, Engine.start]
  case tick => exact ⟨0, by rw [Engine.nextTick?, rests], Nat.le_refl 0⟩
  case phase => exact .between (Or.inl rests) .nil (by simp [begin, start])
  all_goals rfl

theorem pairwise_of_inTurn {now : Nat} {accounts : List PassAccount} (inTurn : InTurn now accounts) :
    accounts.Pairwise fun later earlier =>
      ∃ time outcome, earlier.ended = some (time, outcome) ∧ time ≤ later.began := by
  induction inTurn with
  | nil => exact .nil
  | cons _ _ _ earlierInTurn ih => exact .cons earlierInTurn.exists_ended ih

theorem IsTrue.pairwise_accounts (isTrue : chronicle.IsTrue router interval) :
    chronicle.accounts.Pairwise fun later earlier =>
      ∃ time outcome, earlier.ended = some (time, outcome) ∧ time ≤ later.began := by
  cases isTrue.phase with
  | between _ inTurn _ => exact pairwise_of_inTurn inTurn
  | within _ accountsEq _ inTurn _ =>
      rw [accountsEq]
      exact .cons inTurn.exists_ended (pairwise_of_inTurn inTurn)

theorem IsTrue.isSound_of_mem (isTrue : chronicle.IsTrue router interval) :
    ∀ account ∈ chronicle.accounts, account.IsSound router := by
  cases isTrue.phase with
  | between _ _ sound => exact sound
  | within _ accountsEq inProgress _ sound =>
      rw [accountsEq]
      exact List.forall_mem_cons.mpr ⟨inProgress.isSound, sound⟩

theorem lastCompletion_le {now time : Nat} {accounts : List PassAccount} (inTurn : InTurn now accounts)
    (isLast : lastCompletion accounts = some time) : time ≤ now := by
  induction inTurn with
  | nil => cases isLast
  | @cons now ended outcome account earlier endedEq timeLe beganLe _ ih =>
      rw [lastCompletion, endedEq] at isLast
      cases outcome with
      | completed =>
          cases isLast
          exact timeLe
      | broken => exact (ih isLast).trans (beganLe.trans timeLe)

theorem IsTrue.lastCheck_le (isTrue : chronicle.IsTrue router interval) {time : Nat}
    (isLast : chronicle.watch.engine.lastCheck = some time) : time ≤ chronicle.watch.engine.now := by
  rw [isTrue.lastCheck_eq] at isLast
  cases isTrue.phase with
  | between _ inTurn _ => exact lastCompletion_le inTurn isLast
  | within _ accountsEq inProgress inTurn _ =>
      rw [accountsEq, lastCompletion, inProgress.notEnded] at isLast
      exact (lastCompletion_le inTurn isLast).trans inProgress.beganLe

/-- The last check changes when a pass is completed, to that time, and then only. -/
theorem lastCheck_record (chronicle : Chronicle) (occurrence : Occurrence) :
    (chronicle.record occurrence).watch.engine.lastCheck = chronicle.watch.engine.lastCheck ∨
      chronicle.watch.engine.isPassing = true ∧
        (chronicle.record occurrence).watch.engine.isPassing = false ∧
        (chronicle.record occurrence).watch.engine.outcome = .completed ∧
        (chronicle.record occurrence).watch.engine.lastCheck = some chronicle.watch.engine.now := by
  cases occurrence with
  | change host responder => exact Or.inl rfl
  | tell =>
      obtain ⟨journal, activity, toldEq, -⟩ := chronicle.watch.engine.tellBroken_eq
      rw [watch_record, Watch.occur, toldEq]
      exact Or.inl rfl
  | act action =>
      by_cases isPass : action = .pass
      · subst isPass
        rw [watch_record, Watch.occur]
        dsimp only [Watch.act, Engine.act]
        split
        · next due pass isPassing =>
          by_cases noneLeft : pass.remaining = []
          · obtain ⟨rests, -, -, lastCheckEq⟩ :=
              Engine.passStep_of_noneLeft chronicle.watch.engine due noneLeft
            refine Or.inr ⟨?_, ?_, ?_, lastCheckEq⟩
            · rw [Engine.isPassing, isPassing]
            · rw [Engine.isPassing, rests]
            · rw [Engine.outcome, rests]
          · exact Or.inl (Engine.keepsTime_passStep chronicle.watch.engine due noneLeft).lastCheck_eq
        · exact Or.inl rfl
      · exact Or.inl (Engine.act_of_ne_pass chronicle.watch.engine isPass).2.2

theorem length_accounts_le_record (chronicle : Chronicle) (occurrence : Occurrence) :
    chronicle.accounts.length ≤ (chronicle.record occurrence).accounts.length := by
  simp only [record, List.length_modifyHead]
  split
  · exact Nat.le_refl _
  · exact Nat.le_succ _

theorem length_accounts_le_recordAll (chronicle : Chronicle) (occurrences : List Occurrence) :
    chronicle.accounts.length ≤ (chronicle.recordAll occurrences).accounts.length := by
  induction occurrences generalizing chronicle with
  | nil => exact Nat.le_refl _
  | cons occurrence occurrences ih =>
      exact (length_accounts_le_record chronicle occurrence).trans (ih _)

theorem activity_record_tell {due : Nat} (awaits : chronicle.watch.engine.Awaits due) :
    (chronicle.record .tell).watch.engine.activity = .resting due := by
  rw [watch_record, Watch.occur]
  exact Engine.activity_tellBroken_of_awaits awaits

/-- No pass that is due is forgotten: it goes on being due until it begins. -/
theorem IsTrue.awaits_record (isTrue : chronicle.IsTrue router interval) (positive : 0 < interval)
    {due : Nat} (awaits : chronicle.watch.engine.Awaits due) (occurrence : Occurrence) :
    chronicle.accounts.length < (chronicle.record occurrence).accounts.length ∨
      (chronicle.record occurrence).watch.engine.Awaits due ∧
        (chronicle.watch.engine.activity = .resting due →
          (chronicle.record occurrence).watch.engine.activity = .resting due) := by
  rcases isTrue.isQuiet_or occurrence with
    quiet | ⟨rfl, due', rests, isDue⟩ | ⟨rfl, due', pass, isPassing⟩
  · right
    rcases quiet.activity with same | ⟨due', isBroken, rests⟩
    · exact ⟨awaits.imp same.trans same.trans, same.trans⟩
    · rcases awaits with rested | wasBroken
      · rw [rested] at isBroken
        cases isBroken
      · rw [wasBroken] at isBroken
        cases isBroken
        exact ⟨Or.inl rests, fun _ => rests⟩
  · left
    rw [(isTrue.record_start rests isDue positive).2.1, List.length_cons]
    exact Nat.lt_succ_self _
  · exact absurd awaits (Engine.not_awaits_of_passing isPassing due)

theorem IsTrue.awaits_recordAll (isTrue : chronicle.IsTrue router interval) (positive : 0 < interval)
    {due : Nat} (awaits : chronicle.watch.engine.Awaits due) (occurrences : List Occurrence) :
    chronicle.accounts.length < (chronicle.recordAll occurrences).accounts.length ∨
      (chronicle.recordAll occurrences).watch.engine.Awaits due ∧
        (chronicle.watch.engine.activity = .resting due →
          (chronicle.recordAll occurrences).watch.engine.activity = .resting due) := by
  induction occurrences generalizing chronicle with
  | nil => exact Or.inr ⟨awaits, id⟩
  | cons occurrence occurrences ih =>
      have moreLater := length_accounts_le_recordAll (chronicle.record occurrence) occurrences
      rcases isTrue.awaits_record positive awaits occurrence with begins | ⟨awaitsNext, restsNext⟩
      · exact Or.inl (begins.trans_le moreLater)
      · have moreNext := length_accounts_le_record chronicle occurrence
        rcases ih (isTrue.record positive occurrence) awaitsNext with begins | ⟨awaitsThen, restsThen⟩
        · exact Or.inl (moreNext.trans_lt begins)
        · exact Or.inr ⟨awaitsThen, fun rests => restsThen (restsNext rests)⟩

/-- When the rounds have heard of the last pass and find the next one due at their turn, it has
begun, whatever else has happened. -/
theorem IsTrue.begins_when_due (isTrue : chronicle.IsTrue router interval) (positive : 0 < interval)
    {due : Nat} (awaits : chronicle.watch.engine.Awaits due) (first second : List Occurrence)
    (isDue : due ≤ (chronicle.recordAll (first ++ .tell :: second)).watch.engine.now) :
    chronicle.accounts.length <
      ((chronicle.recordAll (first ++ .tell :: second)).record (.act .start)).accounts.length := by
  have isTrueThen := isTrue.recordAll positive (first ++ .tell :: second)
  have moreLater := length_accounts_le_record
    (chronicle.recordAll (first ++ .tell :: second)) (.act .start)
  suffices begun : chronicle.accounts.length <
      (chronicle.recordAll (first ++ .tell :: second)).accounts.length ∨
      (chronicle.recordAll (first ++ .tell :: second)).watch.engine.activity = .resting due by
    rcases begun with begins | rests
    · exact begins.trans_le moreLater
    · have moreThen := length_accounts_le_recordAll chronicle (first ++ .tell :: second)
      rw [(isTrueThen.record_start rests isDue positive).2.1, List.length_cons]
      exact Nat.lt_succ_of_le moreThen
  have isTrueFirst := isTrue.recordAll positive first
  have moreFirst := length_accounts_le_recordAll chronicle first
  have moreTold := length_accounts_le_record (chronicle.recordAll first) .tell
  have moreSecond := length_accounts_le_recordAll ((chronicle.recordAll first).record .tell) second
  rw [recordAll_append]
  change _ < (((chronicle.recordAll first).record .tell).recordAll second).accounts.length ∨
    (((chronicle.recordAll first).record .tell).recordAll second).watch.engine.activity = _
  rcases isTrue.awaits_recordAll positive awaits first with begins | ⟨awaitsFirst, -⟩
  · exact Or.inl (by omega)
  · have rests := activity_record_tell awaitsFirst
    rcases (isTrueFirst.record positive .tell).awaits_recordAll positive (Or.inl rests) second with
      begins | ⟨-, restsThen⟩
    · exact Or.inl (by omega)
    · exact Or.inr (restsThen rests)

theorem watch_recordAll_act (chronicle : Chronicle) (actions : List Action) :
    (chronicle.recordAll (actions.map .act)).watch = chronicle.watch.run actions := by
  induction actions generalizing chronicle with
  | nil => rfl
  | cons action actions ih => exact ih (chronicle.record (.act action))

theorem length_accounts_record_of_tick_eq {occurrence : Occurrence}
    (tick : (chronicle.record occurrence).watch.engine.nextTick? = chronicle.watch.engine.nextTick?) :
    (chronicle.record occurrence).accounts.length = chronicle.accounts.length := by
  rw [watch_record] at tick
  simp only [record, tick, if_true, List.length_modifyHead]

/-- What happens outside of passes changes neither the accounts nor the activity. -/
theorem IsTrue.recordAll_of_isOutside (isTrue : chronicle.IsTrue router interval)
    {actions : List Action}
    (outside : ∀ action ∈ actions, action.isOutside = true) :
    (chronicle.recordAll (actions.map .act)).accounts = chronicle.accounts ∧
      (chronicle.recordAll (actions.map .act)).watch.engine.activity =
        chronicle.watch.engine.activity := by
  induction actions generalizing chronicle with
  | nil => exact ⟨rfl, rfl⟩
  | cons action actions ih =>
      obtain ⟨isOutside, restOutside⟩ := List.forall_mem_cons.mp outside
      have notPass : action ≠ .pass := by
        rintro rfl
        cases isOutside
      have sameActivity := Engine.activity_act_of_isOutside chronicle.watch.engine isOutside
      have quiet := isQuiet_act isTrue notPass sameActivity
      obtain ⟨accounts, activity⟩ := ih (isTrue.of_isQuiet quiet) restOutside
      exact ⟨accounts.trans quiet.accounts_eq, activity.trans sameActivity⟩

/-- Whatever a pass waits for can happen, and each step that need not wait brings the pass
nearer to its end. -/
theorem IsTrue.exists_end (isTrue : chronicle.IsTrue router interval) (positive : 0 < interval)
    {due : Nat} {pass : Pass} (isPassing : chronicle.watch.engine.activity = .passing due pass) :
    ∃ actions : List Action,
      (chronicle.recordAll (actions.map .act)).accounts.length = chronicle.accounts.length ∧
        (chronicle.recordAll (actions.map .act)).watch.engine.Awaits due := by
  induction rankEq : pass.rank using WellFoundedLT.induction generalizing chronicle pass with
  | ind rank ih =>
      obtain ⟨actions, outside, isFree⟩ := isTrue.served.exists_isFree pass
      obtain ⟨accountsThen, activityThen⟩ := isTrue.recordAll_of_isOutside outside
      rw [← watch_recordAll_act] at isFree
      have passingThen := activityThen.trans isPassing
      have isTrueThen := isTrue.recordAll positive (actions.map .act)
      have ranThen (more : List Action) : chronicle.recordAll ((actions ++ .pass :: more).map .act) =
          ((chronicle.recordAll (actions.map .act)).record (.act .pass)).recordAll (more.map .act) := by
        rw [List.map_append, recordAll_append]
        rfl
      generalize chronicle.recordAll (actions.map .act) = middle at *
      obtain ⟨isTrueNow, steps⟩ := isTrueThen.record_pass passingThen
      have sameLength (tick : (middle.record (.act .pass)).watch.engine.nextTick? = some due) :
          (middle.record (.act .pass)).accounts.length = chronicle.accounts.length := by
        rw [← accountsThen]
        apply length_accounts_record_of_tick_eq
        rw [tick, Engine.nextTick?, passingThen]
      have ends (awaits : (middle.record (.act .pass)).watch.engine.Awaits due) : ∃ actions : List Action,
          (chronicle.recordAll (actions.map .act)).accounts.length = chronicle.accounts.length ∧
            (chronicle.recordAll (actions.map .act)).watch.engine.Awaits due := by
        refine ⟨actions ++ [.pass], ?_, ?_⟩
        · rw [ranThen]
          apply sameLength
          rcases awaits with rests | isBroken
          · rw [Engine.nextTick?, rests]
          · rw [Engine.nextTick?, isBroken]
        · rw [ranThen]
          exact awaits
      rcases steps with rests | isBroken | ⟨after, goesOn, lower⟩
      · exact ends (Or.inl rests)
      · exact ends (Or.inr isBroken)
      · have rankLower : after.rank < rank :=
          rankEq ▸ lower.resolve_right fun isBlocked => isBlocked isFree
        obtain ⟨more, length, awaits⟩ := ih after.rank rankLower isTrueNow goesOn rfl
        refine ⟨actions ++ .pass :: more, ?_, ?_⟩
        · rw [ranThen, length]
          apply sameLength
          change (middle.watch.engine.act .pass).nextTick? = some due
          rw [Engine.nextTick?, goesOn]
        · rw [ranThen]
          exact awaits

theorem IsTrue.exists_start (isTrue : chronicle.IsTrue router interval) (positive : 0 < interval)
    {due : Nat} (awaits : chronicle.watch.engine.Awaits due) :
    ∃ time, (chronicle.recordAll [.tell, .act (.elapse due), .act .start]).accounts =
      .beginning time :: chronicle.accounts := by
  have told := isQuiet_tell isTrue
  have isTrueTold := isTrue.of_isQuiet told
  have elapsed := isQuiet_act isTrueTold (by simp : Action.elapse due ≠ .pass) rfl
  have rests : ((chronicle.record .tell).record (.act (.elapse due))).watch.engine.activity =
      .resting due := activity_record_tell awaits
  have isDue : due ≤ ((chronicle.record .tell).record (.act (.elapse due))).watch.engine.now :=
    Nat.le_add_left ..
  have begun := ((isTrueTold.of_isQuiet elapsed).record_start rests isDue positive).2.1
  rw [elapsed.accounts_eq, told.accounts_eq] at begun
  exact ⟨_, begun⟩

/-- Nothing happens but what the scheduler and its caller do themselves: no host changes. -/
def IsOwn (occurrences : List Occurrence) : Prop :=
  ∀ host responder, .change host responder ∉ occurrences

/-- Whatever has happened, the pass that goes on can come to its end and another can begin. -/
theorem IsTrue.exists_next (isTrue : chronicle.IsTrue router interval) (positive : 0 < interval) :
    ∃ more time, IsOwn more ∧
      (chronicle.recordAll more).accounts.head? = some (.beginning time) ∧
      (chronicle.recordAll more).accounts.length = chronicle.accounts.length + 1 := by
  have fromAwaits (actions : List Action) {due : Nat}
      (length : (chronicle.recordAll (actions.map .act)).accounts.length = chronicle.accounts.length)
      (awaits : (chronicle.recordAll (actions.map .act)).watch.engine.Awaits due) :
      ∃ more time, IsOwn more ∧
        (chronicle.recordAll more).accounts.head? = some (.beginning time) ∧
        (chronicle.recordAll more).accounts.length = chronicle.accounts.length + 1 := by
    obtain ⟨time, accountsEq⟩ :=
      (isTrue.recordAll positive (actions.map .act)).exists_start positive awaits
    refine ⟨actions.map .act ++ [.tell, .act (.elapse due), .act .start], time, ?_, ?_, ?_⟩
    · simp [IsOwn]
    · rw [recordAll_append, accountsEq, List.head?_cons]
    · rw [recordAll_append, accountsEq, List.length_cons, length]
  cases isTrue.phase with
  | between activity => exact fromAwaits [] rfl activity
  | within isPassing =>
      obtain ⟨actions, length, awaits⟩ := isTrue.exists_end positive isPassing
      exact fromAwaits actions length awaits

/-- Until the scheduler is dropped, what a runner lets an engine do is something that can
happen. -/
theorem IsTrue.exists_occurrences_of_step (isTrue : chronicle.IsTrue router interval)
    {next : Engine} (step : Engine.Step false chronicle.watch.engine next) :
    ∃ occurrences, (chronicle.recordAll occurrences).watch.engine = next := by
  rcases step.exists_act with ⟨action, isNext⟩ | isTold | isStopping
  · exact ⟨[.act action], isNext⟩
  · exact ⟨[.tell], isTold.symm⟩
  · obtain ⟨due, tick, -⟩ := isTrue.tick
    rw [Engine.nextTick?, isStopping] at tick
    cases tick

theorem IsTrue.exists_occurrences_of_steps (isTrue : chronicle.IsTrue router interval)
    (positive : 0 < interval) {next : Engine}
    (steps : Relation.ReflTransGen (Engine.Step false) chronicle.watch.engine next) :
    ∃ occurrences, (chronicle.recordAll occurrences).watch.engine = next := by
  induction steps with
  | refl => exact ⟨[], rfl⟩
  | tail _ step ih =>
      obtain ⟨occurrences, rfl⟩ := ih
      obtain ⟨more, ran⟩ := (isTrue.recordAll positive occurrences).exists_occurrences_of_step step
      exact ⟨occurrences ++ more, by rw [recordAll_append, ran]⟩

/-- What the rounds have done so far and can do next, whatever has become of their passes. -/
structure GoesOn (router : AutoRouter Float) (chronicle : Chronicle) : Prop where
  /-- A pass begins only when the one before has ended. -/
  inTurn : chronicle.accounts.Pairwise fun later earlier =>
    ∃ time outcome, earlier.ended = some (time, outcome) ∧ time ≤ later.began
  /-- Every pass goes through all hosts, to the end or up to the call that breaks off. -/
  sound : ∀ account ∈ chronicle.accounts, account.IsSound router
  /-- A pass is always due soon, and when the rounds have heard of the last pass and find the
  next one due at their turn, it has begun. -/
  begins : ∃ due, chronicle.watch.engine.nextTick? = some due ∧
    due ≤ latestTick chronicle.watch.engine.interval chronicle.accounts ∧
    (chronicle.watch.engine.isPassing = false → ∀ first second,
      due ≤ (chronicle.recordAll (first ++ .tell :: second)).watch.engine.now →
      chronicle.accounts.length <
        ((chronicle.recordAll (first ++ .tell :: second)).record (.act .start)).accounts.length)
  /-- A pass that goes on can come to its end, so that there can always be another. -/
  next : ∃ more time, IsOwn more ∧
    (chronicle.recordAll more).accounts.head? = some (.beginning time) ∧
    (chronicle.recordAll more).accounts.length = chronicle.accounts.length + 1
  /-- The last check is the end of the latest pass that was completed. -/
  lastCheck_eq : chronicle.watch.engine.lastCheck = lastCompletion chronicle.accounts
  /-- It changes when a pass is completed, to that time, which is no earlier. -/
  lastCheck_record : ∀ occurrence,
    (chronicle.record occurrence).watch.engine.lastCheck = chronicle.watch.engine.lastCheck ∨
      chronicle.watch.engine.isPassing = true ∧
        (chronicle.record occurrence).watch.engine.isPassing = false ∧
        (chronicle.record occurrence).watch.engine.outcome = .completed ∧
        (chronicle.record occurrence).watch.engine.lastCheck = some chronicle.watch.engine.now ∧
        ∀ time, chronicle.watch.engine.lastCheck = some time → time ≤ chronicle.watch.engine.now
  /-- What discovery has sent is what the passes have reported. -/
  reported : chronicle.watch.sentBy .discovery = chronicle.accounts.reverse.flatMap (·.reports)
  /-- All that has been sent can be counted and published, whoever has sent it. -/
  counted : ∃ steps, (chronicle.watch.run
      (List.replicate steps .work)).engine.router.dispatch.published =
    (RoutingTable.initial router.hosts.length router.bucketCount).applyAll
      (reportsIn chronicle.watch.sent)

theorem IsTrue.goesOn (isTrue : chronicle.IsTrue router interval) (positive : 0 < interval) :
    chronicle.GoesOn router where
  inTurn := isTrue.pairwise_accounts
  sound := isTrue.isSound_of_mem
  begins := by
    obtain ⟨due, tick, dueLe⟩ := isTrue.tick
    refine ⟨due, tick, dueLe, fun notPassing first second isDue => ?_⟩
    have awaits := Engine.awaits_of_nextTick? tick notPassing
    exact isTrue.begins_when_due positive awaits first second isDue
  next := isTrue.exists_next positive
  lastCheck_eq := isTrue.lastCheck_eq
  lastCheck_record := by
    intro occurrence
    rcases Chronicle.lastCheck_record chronicle occurrence with same | ⟨was, isOver, completed, last⟩
    · exact Or.inl same
    · exact Or.inr ⟨was, isOver, completed, last, fun time isLast => isTrue.lastCheck_le isLast⟩
  reported := isTrue.reported
  counted := isTrue.served.exists_drained

/-- Whatever hosts answer, whenever they do and whichever calls break off, passes go on one
after the other.  No runner does anything else, and none lets a pass wait that is due. -/
theorem rounds_outlive_broken_passes {hosts : List Host} {bucketCount : Nat} {method : HashMethod}
    {options : AutoOptions}
    (built : AutoRouter.build hosts bucketCount method options true = .ok router)
    (isOn : options.discovery = true) (hasInterval : options.interval ≠ 0)
    (script : Nat → Responder) (journal : Journal) :
    (∀ occurrences, ((begin router script options journal).recordAll occurrences).GoesOn router) ∧
    ∀ runner, Relation.ReflTransGen Runner.Moves (Runner.start (Engine.start router
        ((List.range router.hosts.length).map script) options journal) options) runner →
      runner.dropped = false →
      runner.IsPrompt router ∧
        ∃ occurrences,
          ((begin router script options journal).recordAll occurrences).watch.engine =
            runner.engine := by
  have positive : 0 < options.interval := Nat.pos_of_ne_zero hasInterval
  have isTrue := isTrue_begin built isOn hasInterval script journal
  constructor
  · exact fun occurrences => (isTrue.recordAll positive occurrences).goesOn positive
  · intro runner moves isHeld
    obtain ⟨occurrences, ran⟩ :=
      isTrue.exists_occurrences_of_steps positive (Runner.steps_of_moves moves isHeld)
    have planEq : runner.engine.plan = fullPlan router := by
      rw [← ran]
      exact (isTrue.recordAll positive occurrences).served.plan_eq
    exact ⟨(Runner.attends_of_moves moves).isPrompt isHeld planEq, occurrences, ran⟩

/-- The first call of the second host breaks off after five milliseconds and takes the first
pass with it, but not what that pass has reported of the first host, nor the second pass. -/
theorem rounds_outlive_broken_passes_of_two_hosts :
    let script : Nat → Responder := fun host =>
      ⟨⟨toString host⟩, if host = 1 then [0] else [],
        fun call => if host = 1 ∧ call = 0 then 5 else 0, false,
        [("@", [.body "a/ 0 16".toUTF8.toList])], 0, none⟩
    let chronicle := (begin ⟨[⟨"0"⟩, ⟨"1"⟩], 1, .crc32, Dispatch.initial 2 1 8⟩ script ⟨1000, 8, true⟩
      (.empty none)).recordAll ([.act .start, .act .pass, .act .pass, .act .pass, .act .pass,
        .act (.elapse 5), .act .pass, .tell, .act (.elapse 995), .act .start] ++
          List.replicate 7 (.act .pass))
    chronicle.accounts.map (·.ended) = [some (1000, .completed), some (5, .broken)] ∧
      chronicle.watch.engine.lastCheck = some 1000 ∧
      chronicle.watch.sentBy .discovery =
        [.feedback ⟨0, 0, 4⟩, .feedback ⟨0, 0, 4⟩, .feedback ⟨1, 0, 4⟩] := by
  intro script chronicle
  have built : AutoRouter.build [⟨"0"⟩, ⟨"1"⟩] 1 .crc32 ⟨1000, 8, true⟩ true =
      .ok (⟨[⟨"0"⟩, ⟨"1"⟩], 1, .crc32, Dispatch.initial 2 1 8⟩ : AutoRouter Float) := rfl
  have goesOn : chronicle.GoesOn _ :=
    (rounds_outlive_broken_passes built rfl (by decide) script (.empty none)).1 _
  have endedEq : chronicle.accounts.map (·.ended) =
      [some (1000, .completed), some (5, .broken)] := by decide +kernel
  refine ⟨endedEq, ?_, ?_⟩
  · rw [goesOn.lastCheck_eq]
    decide +kernel
  · rw [goesOn.reported]
    decide +kernel

end Chronicle

end CacheRouting
