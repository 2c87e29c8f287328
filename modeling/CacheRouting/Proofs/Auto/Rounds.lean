import CacheRouting.Proofs.Auto.Clock
import CacheRouting.Proofs.Auto.Chronicle

/-!
# What chronicles say

Passes follow each other, each with all hosts before it, and none begins before the
one that goes on has been completed or broken off.  Whatever happens, the chronicle
stays true: each account fits the plan of a pass, discovery has sent what the
accounts report, and the last check is the end of the latest pass that was
completed.
-/

namespace CacheRouting

open Discovery (Course listedBy reportOf)

namespace PassAccount

variable {router : AutoRouter Float} {account : PassAccount}

structure InProgress (router : AutoRouter Float) (now : Nat) (pass : Pass) (account : PassAccount) :
    Prop where
  notEnded : account.ended = none
  beganLe : account.began ≤ now
  course : Course (fullPlan router) account.calls pass.later
  reports : account.reports ++ pass.inHand.map (reportOf router) =
    (listedBy account.calls).map (reportOf router)
  finite : ∀ entry ∈ pass.inHand, entry.2.2.isFinite = true
  breaks_iff : pass.IsBreaking ↔ ∃ entry ∈ account.calls, entry.2.2.answer = .broken

section Progress

variable {now : Nat} {pass after : Pass} {host : Nat} {probe : String} {later : List (Nat × String)}
  {call : Call}

theorem InProgress.isSound (inProgress : InProgress router now pass account) :
    account.IsSound router :=
  .goesOn inProgress.notEnded inProgress.course (inProgress.reports ▸ List.prefix_append ..)

/-- With nothing in hand all that was listed has been reported. -/
theorem InProgress.reports_eq (inProgress : InProgress router now pass account)
    (noneInHand : pass.inHand = []) :
    account.reports = (listedBy account.calls).map (reportOf router) := by
  have reportsEq := inProgress.reports
  rwa [noneInHand, List.map_nil, List.append_nil] at reportsEq

/-- A host is asked, and the pass has in hand what it lists. -/
theorem InProgress.ask (inProgress : InProgress router now pass account)
    (noneInHand : pass.inHand = []) (isNext : pass.later = (host, probe) :: later)
    (inHand : after.inHand = (call.answer.entries probe).map fun entry => (host, entry))
    (laterEq : after.later = Discovery.leave host later call.answer)
    (breaks_iff : after.IsBreaking ↔ call.answer = .broken) :
    InProgress router now after
      ⟨account.began, account.calls ++ [(host, probe, call)], account.reports, none⟩ := by
  have course := isNext ▸ inProgress.course
  refine ⟨rfl, inProgress.beganLe, laterEq ▸ .call _ course, ?_, ?_, ?_⟩
  · dsimp only
    rw [inProgress.reports_eq noneInHand, inHand, Discovery.listedBy_append,
      Discovery.listedBy_singleton, List.map_append]
  · intro entry member
    rw [inHand] at member
    obtain ⟨listed, isListed, rfl⟩ := List.mem_map.mp member
    exact Answer.isFinite_of_mem_entries isListed
  · -- Something is left, so no earlier call has broken off.
    have noneBroken : ¬ ∃ entry ∈ account.calls, entry.2.2.answer = .broken := by
      rintro ⟨entry, member, breaks⟩
      cases (course.exists_last_of_broken member breaks).1
    rw [breaks_iff]
    simp [List.mem_append, or_and_right, exists_or, noneBroken]

/-- The first of the entries in hand is reported. -/
theorem InProgress.send (inProgress : InProgress router now pass account)
    {entry : Nat × String × Float} {rest : List (Nat × String × Float)}
    (isFirst : pass.inHand = entry :: rest) (inHand : after.inHand = rest)
    (laterEq : after.later = pass.later) (sameBreaks : after.IsBreaking ↔ pass.IsBreaking) :
    InProgress router now after
      ⟨account.began, account.calls, account.reports ++ [reportOf router entry], none⟩ := by
  refine ⟨rfl, inProgress.beganLe, laterEq ▸ inProgress.course, ?_, ?_,
    sameBreaks.trans inProgress.breaks_iff⟩
  · dsimp only
    rw [← inProgress.reports, isFirst, inHand, List.append_assoc]
    rfl
  · intro other member
    apply inProgress.finite
    rw [isFirst, ← inHand]
    exact List.mem_cons_of_mem entry member

theorem InProgress.go (inProgress : InProgress router now pass account)
    (inHand : after.inHand = pass.inHand) (laterEq : after.later = pass.later)
    (sameBreaks : after.IsBreaking ↔ pass.IsBreaking) :
    InProgress router now after ⟨account.began, account.calls, account.reports, none⟩ :=
  ⟨rfl, inProgress.beganLe, laterEq ▸ inProgress.course, inHand ▸ inProgress.reports,
    inHand ▸ inProgress.finite, sameBreaks.trans inProgress.breaks_iff⟩

theorem InProgress.isSound_of_completed (inProgress : InProgress router now pass account)
    (noneLeft : pass.remaining = []) :
    PassAccount.IsSound router
      ⟨account.began, account.calls, account.reports, some (now, .completed)⟩ := by
  have noneInHand : pass.inHand = [] := by
    simp [Pass.inHand, noneLeft]
  have noneLater : pass.later = [] := by
    simp [Pass.later, noneLeft]
  have notBreaking : ¬ pass.IsBreaking := fun isBreaking => isBreaking.1 noneLeft
  refine .completed rfl inProgress.beganLe (noneLater ▸ inProgress.course) ?_
    (inProgress.reports_eq noneInHand)
  intro entry member breaks
  exact notBreaking (inProgress.breaks_iff.mpr ⟨entry, member, breaks⟩)

/-- The call that breaks off is made and ends the pass at once. -/
theorem InProgress.isSound_of_askBroken (inProgress : InProgress router now pass account)
    (noneInHand : pass.inHand = []) (isNext : pass.later = (host, probe) :: later)
    (breaks : call.answer = .broken) :
    PassAccount.IsSound router
      ⟨account.began, account.calls ++ [(host, probe, call)], account.reports,
        some (now, .broken)⟩ := by
  refine .broken rfl inProgress.beganLe (isNext ▸ inProgress.course) rfl breaks ?_
  dsimp only
  rw [Discovery.listedBy_append, Discovery.listedBy_singleton, breaks,
    inProgress.reports_eq noneInHand]
  simp [Answer.entries]

/-- The call that breaks off was on its way, and now it ends the pass. -/
theorem InProgress.isSound_of_isBreaking (inProgress : InProgress router now pass account)
    (isBreaking : pass.IsBreaking) :
    PassAccount.IsSound router
      ⟨account.began, account.calls, account.reports, some (now, .broken)⟩ := by
  obtain ⟨entry, member, breaks⟩ := inProgress.breaks_iff.mp isBreaking
  obtain ⟨-, before, host, probe, later, call, courseBefore, callsEq, lastBreaks⟩ :=
    inProgress.course.exists_last_of_broken member breaks
  exact .broken rfl inProgress.beganLe courseBefore callsEq lastBreaks
    (inProgress.reports_eq isBreaking.inHand_eq)

end Progress

theorem InTurn.mono {now later : Nat} {accounts : List PassAccount} (inTurn : InTurn now accounts)
    (nowLe : now ≤ later) : InTurn later accounts := by
  cases inTurn with
  | nil => exact .nil
  | cons ended timeLe beganLe earlier => exact .cons ended (timeLe.trans nowLe) beganLe earlier

theorem InTurn.exists_ended {now : Nat} {accounts : List PassAccount} (inTurn : InTurn now accounts) :
    ∀ account ∈ accounts, ∃ time outcome, account.ended = some (time, outcome) ∧ time ≤ now := by
  induction inTurn with
  | nil => simp
  | cons ended timeLe beganLe _ ih =>
      refine List.forall_mem_cons.mpr ⟨⟨_, _, ended, timeLe⟩, ?_⟩
      intro earlier member
      obtain ⟨time, outcome, earlierEnded, earlierLe⟩ := ih earlier member
      exact ⟨time, outcome, earlierEnded, earlierLe.trans (beganLe.trans timeLe)⟩

/-- The next pass is due at once before the first, and no later than an interval after the
last began. -/
def latestTick (interval : Nat) : List PassAccount → Nat
  | [] => 0
  | account :: _ => account.began + interval

end PassAccount

namespace Chronicle

open PassAccount (InProgress InTurn fullPlan lastCompletion latestTick)
open Engine (Action PassMove)

inductive Phase (router : AutoRouter Float) (chronicle : Chronicle) : Prop
  | between {due : Nat}
      (activity : chronicle.watch.engine.activity = .resting due ∨
        chronicle.watch.engine.activity = .broken due)
      (inTurn : InTurn chronicle.watch.engine.now chronicle.accounts)
      (sound : ∀ account ∈ chronicle.accounts, account.IsSound router)
  | within {due : Nat} {pass : Pass} {account : PassAccount} {earlier : List PassAccount}
      (activity : chronicle.watch.engine.activity = .passing due pass)
      (accountsEq : chronicle.accounts = account :: earlier)
      (inProgress : InProgress router chronicle.watch.engine.now pass account)
      (inTurn : InTurn account.began earlier)
      (sound : ∀ account ∈ earlier, account.IsSound router)

/-- What a chronicle says is true of its scheduler. -/
structure IsTrue (router : AutoRouter Float) (interval : Nat) (chronicle : Chronicle) : Prop where
  served : chronicle.watch.IsServed router
  size_eq : chronicle.watch.engine.responders.size = router.hosts.length
  interval_eq : chronicle.watch.engine.interval = interval
  reported : chronicle.watch.sentBy .discovery = chronicle.accounts.reverse.flatMap (·.reports)
  lastCheck_eq : chronicle.watch.engine.lastCheck = lastCompletion chronicle.accounts
  tick : ∃ due, chronicle.watch.engine.nextTick? = some due ∧
    due ≤ latestTick chronicle.watch.engine.interval chronicle.accounts
  phase : chronicle.Phase router

variable {router : AutoRouter Float} {interval : Nat} {chronicle next : Chronicle}

theorem accounts_record_of_quiet {occurrence : Occurrence}
    (tick : (chronicle.watch.occur occurrence).engine.nextTick? = chronicle.watch.engine.nextTick?)
    (goesOn : chronicle.watch.engine.isPassing = true →
      (chronicle.watch.occur occurrence).engine.isPassing = true)
    (calls : chronicle.watch.callsIn occurrence = [])
    (sends : chronicle.watch.sendsIn occurrence = []) :
    (chronicle.record occurrence).accounts = chronicle.accounts := by
  have notOver : (chronicle.watch.engine.isPassing &&
      !(chronicle.watch.occur occurrence).engine.isPassing) = false := by
    cases isPassing : chronicle.watch.engine.isPassing with
    | false => rfl
    | true => simp [goesOn isPassing]
  simp only [record, tick, if_true, calls, sends]
  cases chronicle.accounts with
  | nil => rfl
  | cons account earlier => simp [PassAccount.extend, notOver]

theorem accounts_record_of_pass {account : PassAccount} {earlier : List PassAccount}
    (accountsEq : chronicle.accounts = account :: earlier)
    (tick : (chronicle.watch.occur (.act .pass)).engine.nextTick? = chronicle.watch.engine.nextTick?) :
    (chronicle.record (.act .pass)).accounts =
      account.extend chronicle.watch.engine (chronicle.watch.engine.act .pass)
        (chronicle.watch.engine.callsBetween (chronicle.watch.engine.act .pass))
        (chronicle.watch.engine.sentBetween (chronicle.watch.engine.act .pass)) :: earlier := by
  simp only [record, tick, if_true, accountsEq]
  rfl

structure IsQuiet (router : AutoRouter Float) (chronicle next : Chronicle) : Prop where
  served : next.watch.IsServed router
  accounts_eq : next.accounts = chronicle.accounts
  size_eq : next.watch.engine.responders.size = chronicle.watch.engine.responders.size
  interval_eq : next.watch.engine.interval = chronicle.watch.engine.interval
  reported_eq : next.watch.sentBy .discovery = chronicle.watch.sentBy .discovery
  lastCheck_eq : next.watch.engine.lastCheck = chronicle.watch.engine.lastCheck
  now_le : chronicle.watch.engine.now ≤ next.watch.engine.now
  activity : next.watch.engine.activity = chronicle.watch.engine.activity ∨
    ∃ due, chronicle.watch.engine.activity = .broken due ∧
      next.watch.engine.activity = .resting due

theorem IsQuiet.nextTick?_eq (quiet : IsQuiet router chronicle next) :
    next.watch.engine.nextTick? = chronicle.watch.engine.nextTick? := by
  rcases quiet.activity with same | ⟨due, isBroken, rests⟩
  · rw [Engine.nextTick?, Engine.nextTick?, same]
  · rw [Engine.nextTick?, Engine.nextTick?, isBroken, rests]

theorem IsTrue.of_isQuiet (isTrue : chronicle.IsTrue router interval)
    (quiet : IsQuiet router chronicle next) : next.IsTrue router interval where
  served := quiet.served
  size_eq := quiet.size_eq.trans isTrue.size_eq
  interval_eq := quiet.interval_eq.trans isTrue.interval_eq
  reported := by rw [quiet.reported_eq, quiet.accounts_eq, isTrue.reported]
  lastCheck_eq := by rw [quiet.lastCheck_eq, quiet.accounts_eq, isTrue.lastCheck_eq]
  tick := by
    rw [quiet.nextTick?_eq, quiet.interval_eq, quiet.accounts_eq]
    exact isTrue.tick
  phase := by
    cases isTrue.phase with
    | between activity inTurn sound =>
        have nextInTurn : InTurn next.watch.engine.now next.accounts := by
          rw [quiet.accounts_eq]
          exact inTurn.mono quiet.now_le
        rcases quiet.activity with same | ⟨due, isBroken, rests⟩
        · exact .between (same.symm ▸ activity) nextInTurn (quiet.accounts_eq ▸ sound)
        · exact .between (Or.inl rests) nextInTurn (quiet.accounts_eq ▸ sound)
    | @within due pass account earlier activity accountsEq inProgress inTurn sound =>
        rcases quiet.activity with same | ⟨due, isBroken, rests⟩
        · refine .within (same.trans activity) (quiet.accounts_eq.trans accountsEq) ?_ inTurn sound
          exact { inProgress with beganLe := inProgress.beganLe.trans quiet.now_le }
        · rw [isBroken] at activity
          cases activity

theorem isQuiet_act (isTrue : chronicle.IsTrue router interval) {action : Action}
    (notPass : action ≠ .pass)
    (same : (chronicle.watch.engine.act action).activity = chronicle.watch.engine.activity) :
    IsQuiet router chronicle (chronicle.record (.act action)) := by
  have leaves := Engine.leavesHosts_act chronicle.watch.engine notPass
  obtain ⟨nowLe, intervalEq, lastCheckEq⟩ := Engine.act_of_ne_pass chronicle.watch.engine notPass
  have keeps := Watch.keeps_act_of_ne_pass notPass (Watch.passes_act_of_eq same)
  refine ⟨isTrue.served.act_of_ne_pass notPass, ?_, by rw [← leaves.responders_eq]; rfl, intervalEq,
    keeps.reported_eq, lastCheckEq, nowLe, Or.inl same⟩
  apply accounts_record_of_quiet
  · change (chronicle.watch.engine.act action).nextTick? = _
    rw [Engine.nextTick?, Engine.nextTick?, same]
  · intro isPassing
    change (chronicle.watch.engine.act action).isPassing = true
    rwa [Engine.isPassing, same]
  · exact Engine.callsBetween_of_eq leaves.responders_eq
  · cases action <;> first | rfl | exact absurd rfl notPass

theorem isQuiet_tell (isTrue : chronicle.IsTrue router interval) :
    IsQuiet router chronicle (chronicle.record .tell) := by
  obtain ⟨journal, activity, toldEq, told⟩ := chronicle.watch.engine.tellBroken_eq
  have watchEq : (chronicle.record .tell).watch =
      { chronicle.watch with engine := { chronicle.watch.engine with journal, activity } } := by
    rw [watch_record, Watch.occur, toldEq]
  have tickEq : (chronicle.watch.occur .tell).engine.nextTick? = chronicle.watch.engine.nextTick? := by
    rw [Watch.occur, toldEq]
    rcases told with rfl | ⟨due, isBroken, rfl⟩
    · rfl
    · rw [Engine.nextTick?, Engine.nextTick?, isBroken]
  have goesOn : chronicle.watch.engine.isPassing = true →
      (chronicle.watch.occur .tell).engine.isPassing = true := by
    rw [Watch.occur, toldEq]
    rcases told with rfl | ⟨due, isBroken, rfl⟩
    · exact id
    · intro isPassing
      rw [Engine.isPassing, isBroken] at isPassing
      cases isPassing
  constructor
  case served => exact watchEq ▸ isTrue.served.setEngine rfl rfl
  case accounts_eq => exact accounts_record_of_quiet tickEq goesOn rfl rfl
  case activity => rw [watchEq]; exact told
  case reported_eq => rw [watchEq]; rfl
  all_goals rw [watchEq]

theorem isQuiet_change (isTrue : chronicle.IsTrue router interval) (host : Nat)
    (responder : Responder) : IsQuiet router chronicle (chronicle.record (.change host responder)) where
  served := isTrue.served.setEngine rfl rfl
  accounts_eq := accounts_record_of_quiet rfl id rfl rfl
  size_eq := Array.size_setIfInBounds
  interval_eq := rfl
  reported_eq := rfl
  lastCheck_eq := rfl
  now_le := Nat.le_refl _
  activity := Or.inl rfl

section Start

variable {due : Nat} (rests : chronicle.watch.engine.activity = .resting due)
  (isDue : due ≤ chronicle.watch.engine.now)

include rests isDue

theorem act_start : chronicle.watch.engine.act .start = chronicle.watch.engine.startPass due := by
  simp only [Engine.act, rests, if_pos isDue]

theorem activity_record_start :
    (chronicle.record (.act .start)).watch.engine.activity =
      .passing (chronicle.watch.engine.nextDue due)
        ⟨chronicle.watch.engine.now, chronicle.watch.engine.plan, .asking⟩ :=
  congrArg Engine.activity (act_start rests isDue)

/-- The time of the next pass is set anew, so that an account begins. -/
theorem accounts_record_start (positive : 0 < chronicle.watch.engine.interval) :
    (chronicle.record (.act .start)).accounts =
      .beginning chronicle.watch.engine.now :: chronicle.accounts := by
  have notPassing : chronicle.watch.engine.isPassing = false := by
    rw [Engine.isPassing, rests]
  have leaves := Engine.leavesHosts_act chronicle.watch.engine (by simp : Action.start ≠ .pass)
  have tickBefore : chronicle.watch.engine.nextTick? = some due := by
    rw [Engine.nextTick?, rests]
  have tickAfter : (chronicle.watch.occur (.act .start)).engine.nextTick? =
      some (chronicle.watch.engine.nextDue due) := by
    rw [← watch_record, Engine.nextTick?, activity_record_start rests isDue]
  have anew : (chronicle.watch.occur (.act .start)).engine.nextTick? ≠
      chronicle.watch.engine.nextTick? := by
    rw [tickAfter, tickBefore]
    exact fun same => Nat.ne_of_gt (Engine.lt_nextDue positive due) (Option.some.inj same)
  simp only [record, if_neg anew, Watch.callsIn, Engine.callsBetween_of_eq leaves.responders_eq,
    Watch.sendsIn]
  simp [PassAccount.extend, PassAccount.beginning, notPassing]

/-- The pass that is due begins, with every probe of every host before it. -/
theorem IsTrue.record_start (isTrue : chronicle.IsTrue router interval) (positive : 0 < interval) :
    (chronicle.record (.act .start)).IsTrue router interval ∧
      (chronicle.record (.act .start)).accounts =
        .beginning chronicle.watch.engine.now :: chronicle.accounts ∧
      (chronicle.record (.act .start)).watch.engine.activity =
        .passing (chronicle.watch.engine.nextDue due)
          ⟨chronicle.watch.engine.now, fullPlan router, .asking⟩ := by
  have planEq : chronicle.watch.engine.plan = fullPlan router := isTrue.served.plan_eq
  have activity := activity_record_start rests isDue
  rw [planEq] at activity
  have accountsEq := accounts_record_start rests isDue (isTrue.interval_eq ▸ positive)
  have leaves := Engine.leavesHosts_act chronicle.watch.engine (by simp : Action.start ≠ .pass)
  obtain ⟨-, intervalEq, lastCheckEq⟩ :=
    Engine.act_of_ne_pass chronicle.watch.engine (by simp : Action.start ≠ .pass)
  refine ⟨?_, accountsEq, activity⟩
  constructor
  case served => exact isTrue.served.act_of_ne_pass (by simp)
  case size_eq =>
    rw [← isTrue.size_eq, ← leaves.responders_eq]
    rfl
  case interval_eq => exact intervalEq.trans isTrue.interval_eq
  case reported =>
    have passesEq : (chronicle.watch.act .start).passes = chronicle.watch.passes := by
      simp [Watch.act, Engine.isPassing, rests]
    have reportedEq := (Watch.keeps_act_of_ne_pass (by simp) passesEq).reported_eq
    rw [accountsEq]
    refine reportedEq.trans (isTrue.reported.trans ?_)
    simp [PassAccount.beginning]
  case lastCheck_eq =>
    rw [accountsEq]
    exact lastCheckEq.trans isTrue.lastCheck_eq
  case tick =>
    have tickAfter : (chronicle.record (.act .start)).watch.engine.nextTick? =
        some (chronicle.watch.engine.nextDue due) := by
      rw [Engine.nextTick?, activity]
    have sameInterval : (chronicle.record (.act .start)).watch.engine.interval =
        chronicle.watch.engine.interval := intervalEq
    rw [accountsEq, tickAfter, sameInterval]
    exact ⟨_, rfl, Engine.nextDue_le isDue⟩
  case phase =>
    cases isTrue.phase with
    | between _ inTurn sound =>
        have nowEq : (chronicle.watch.engine.act .start).now = chronicle.watch.engine.now := by
          rw [act_start rests isDue]
          rfl
        refine .within activity accountsEq ?_ inTurn sound
        refine ⟨rfl, Nat.le_of_eq nowEq.symm, ?_, ?_, ?_, ?_⟩
        · simpa [Pass.later, PassAccount.beginning] using Course.begin
        · simp [Pass.inHand, PassAccount.beginning, listedBy]
        · simp [Pass.inHand]
        · simp [Pass.IsBreaking, PassAccount.beginning]
    | within isPassing =>
        rw [rests] at isPassing
        cases isPassing

end Start

section Steps

variable {due : Nat} {pass after : Pass} {account : PassAccount} {earlier : List PassAccount}
  {calls : List (Nat × String × Call)} {reports : List (Message Float)}

structure Shows (chronicle : Chronicle) (due : Nat) (calls : List (Nat × String × Call))
    (reports : List (Message Float)) : Prop where
  served : Engine.Serves .discovery chronicle.watch.engine (chronicle.watch.engine.act .pass)
  probes_eq : (chronicle.watch.engine.act .pass).probes = chronicle.watch.engine.probes
  size_eq : (chronicle.watch.engine.act .pass).responders.size = chronicle.watch.engine.responders.size
  interval_eq : (chronicle.watch.engine.act .pass).interval = chronicle.watch.engine.interval
  now_eq : (chronicle.watch.engine.act .pass).now = chronicle.watch.engine.now
  tick : (chronicle.watch.engine.act .pass).nextTick? = some due
  calls_eq : chronicle.watch.engine.callsBetween (chronicle.watch.engine.act .pass) = calls
  reports_eq : chronicle.watch.engine.sentBetween (chronicle.watch.engine.act .pass) = reports

theorem Shows.accounts_eq (shows : chronicle.Shows due calls reports)
    (isPassing : chronicle.watch.engine.activity = .passing due pass)
    (accountsEq : chronicle.accounts = account :: earlier) :
    (chronicle.record (.act .pass)).accounts =
      account.extend chronicle.watch.engine (chronicle.watch.engine.act .pass) calls reports ::
        earlier := by
  have tickBefore : chronicle.watch.engine.nextTick? = some due := by
    rw [Engine.nextTick?, isPassing]
  rw [accounts_record_of_pass accountsEq (shows.tick.trans tickBefore.symm), shows.calls_eq,
    shows.reports_eq]

/-- Whatever a step of a pass adds to the account, what is recorded besides stays true. -/
theorem IsTrue.of_shows (isTrue : chronicle.IsTrue router interval)
    (shows : chronicle.Shows due calls reports)
    (isPassing : chronicle.watch.engine.activity = .passing due pass)
    (accountsEq : chronicle.accounts = account :: earlier)
    (lastCheckEq : (chronicle.watch.engine.act .pass).lastCheck =
      lastCompletion (chronicle.record (.act .pass)).accounts)
    (phase : (chronicle.record (.act .pass)).Phase router) :
    (chronicle.record (.act .pass)).IsTrue router interval where
  served := isTrue.served.act shows.probes_eq shows.served
  size_eq := shows.size_eq.trans isTrue.size_eq
  interval_eq := shows.interval_eq.trans isTrue.interval_eq
  reported := by
    rw [shows.accounts_eq isPassing accountsEq, watch_record, Watch.occur,
      Watch.reported_act_pass shows.reports_eq, isTrue.reported, accountsEq]
    simp [PassAccount.extend]
  lastCheck_eq := lastCheckEq
  tick := by
    obtain ⟨due', tickBefore, dueLe⟩ := isTrue.tick
    have sameDue : due' = due := by
      rw [Engine.nextTick?, isPassing] at tickBefore
      exact (Option.some.inj tickBefore).symm
    have sameInterval : (chronicle.record (.act .pass)).watch.engine.interval =
        chronicle.watch.engine.interval := shows.interval_eq
    refine ⟨due, shows.tick, ?_⟩
    rw [shows.accounts_eq isPassing accountsEq, sameInterval, ← sameDue]
    rwa [accountsEq] at dueLe
  phase := phase

theorem extend_of_goesOn (isPassing : chronicle.watch.engine.activity = .passing due pass)
    (goesOn : (chronicle.watch.engine.act .pass).activity = .passing due after)
    (notEnded : account.ended = none) :
    account.extend chronicle.watch.engine (chronicle.watch.engine.act .pass) calls reports =
      ⟨account.began, account.calls ++ calls, account.reports ++ reports, none⟩ := by
  simp [PassAccount.extend, Engine.isPassing, isPassing, goesOn, notEnded]

theorem extend_of_ends (isPassing : chronicle.watch.engine.activity = .passing due pass)
    (ends : (chronicle.watch.engine.act .pass).isPassing = false)
    (shows : chronicle.Shows due calls reports) :
    account.extend chronicle.watch.engine (chronicle.watch.engine.act .pass) calls reports =
      ⟨account.began, account.calls ++ calls, account.reports ++ reports,
        some (chronicle.watch.engine.now, (chronicle.watch.engine.act .pass).outcome)⟩ := by
  have wasPassing : chronicle.watch.engine.isPassing = true := by
    rw [Engine.isPassing, isPassing]
  simp [PassAccount.extend, wasPassing, ends, shows.now_eq]

/-- The pass goes on, and its account with it. -/
theorem IsTrue.of_goesOn (isTrue : chronicle.IsTrue router interval)
    (shows : chronicle.Shows due calls reports)
    (isPassing : chronicle.watch.engine.activity = .passing due pass)
    (accountsEq : chronicle.accounts = account :: earlier)
    (inTurn : InTurn account.began earlier) (sound : ∀ account ∈ earlier, account.IsSound router)
    (notEnded : account.ended = none)
    (goesOn : (chronicle.watch.engine.act .pass).activity = .passing due after)
    (lastCheckEq : (chronicle.watch.engine.act .pass).lastCheck = chronicle.watch.engine.lastCheck)
    (inProgress : InProgress router chronicle.watch.engine.now after
      ⟨account.began, account.calls ++ calls, account.reports ++ reports, none⟩) :
    (chronicle.record (.act .pass)).IsTrue router interval := by
  have nextAccounts := shows.accounts_eq isPassing accountsEq
  rw [extend_of_goesOn isPassing goesOn notEnded] at nextAccounts
  apply isTrue.of_shows shows isPassing accountsEq
  · rw [lastCheckEq, nextAccounts, isTrue.lastCheck_eq, accountsEq, lastCompletion, lastCompletion,
      notEnded]
  · refine .within goesOn nextAccounts ?_ inTurn sound
    have nowEq : (chronicle.record (.act .pass)).watch.engine.now = chronicle.watch.engine.now :=
      shows.now_eq
    rwa [nowEq]

/-- The pass comes to its end, and its account with it. -/
theorem IsTrue.of_ends (isTrue : chronicle.IsTrue router interval)
    (shows : chronicle.Shows due calls reports)
    (isPassing : chronicle.watch.engine.activity = .passing due pass)
    (accountsEq : chronicle.accounts = account :: earlier)
    (inTurn : InTurn account.began earlier) (sound : ∀ account ∈ earlier, account.IsSound router)
    (beganLe : account.began ≤ chronicle.watch.engine.now)
    (ends : (chronicle.watch.engine.act .pass).activity = .resting due ∨
      (chronicle.watch.engine.act .pass).activity = .broken due)
    (lastCheckEq : (chronicle.watch.engine.act .pass).lastCheck =
      if (chronicle.watch.engine.act .pass).outcome = .completed then some chronicle.watch.engine.now
      else lastCompletion earlier)
    (isSound : PassAccount.IsSound router
      ⟨account.began, account.calls ++ calls, account.reports ++ reports,
        some (chronicle.watch.engine.now, (chronicle.watch.engine.act .pass).outcome)⟩) :
    (chronicle.record (.act .pass)).IsTrue router interval := by
  have notPassing : (chronicle.watch.engine.act .pass).isPassing = false := by
    rcases ends with rests | isBroken
    · rw [Engine.isPassing, rests]
    · rw [Engine.isPassing, isBroken]
  have nextAccounts := shows.accounts_eq isPassing accountsEq
  rw [extend_of_ends isPassing notPassing shows] at nextAccounts
  apply isTrue.of_shows shows isPassing accountsEq
  · rw [lastCheckEq, nextAccounts, lastCompletion]
    cases (chronicle.watch.engine.act .pass).outcome <;> rfl
  · refine .between ends ?_ ?_
    · rw [nextAccounts]
      exact .cons rfl (Nat.le_of_eq shows.now_eq.symm) beganLe inTurn
    · rw [nextAccounts]
      exact List.forall_mem_cons.mpr ⟨isSound, sound⟩

theorem remaining_ne_nil_of_not_rests
    (isPassing : chronicle.watch.engine.activity = .passing due pass)
    (notRests : (chronicle.watch.engine.act .pass).activity ≠ .resting due) : pass.remaining ≠ [] := by
  intro noneLeft
  apply notRests
  rw [Engine.act, isPassing]
  exact (Engine.passStep_of_noneLeft chronicle.watch.engine due noneLeft).1

theorem shows_of_not_rests
    (move : PassMove chronicle.watch.engine due pass (chronicle.watch.engine.act .pass))
    (isPassing : chronicle.watch.engine.activity = .passing due pass)
    (notRests : (chronicle.watch.engine.act .pass).activity ≠ .resting due)
    (tick : (chronicle.watch.engine.act .pass).nextTick? = some due)
    (size : (chronicle.watch.engine.act .pass).responders.size =
      chronicle.watch.engine.responders.size)
    (callsEq : chronicle.watch.engine.callsBetween (chronicle.watch.engine.act .pass) = calls)
    (reportsEq : chronicle.watch.engine.sentBetween (chronicle.watch.engine.act .pass) = reports) :
    chronicle.Shows due calls reports ∧
      (chronicle.watch.engine.act .pass).lastCheck = chronicle.watch.engine.lastCheck := by
  have keepsTime : chronicle.watch.engine.KeepsTime (chronicle.watch.engine.act .pass) := by
    have stepKeeps := Engine.keepsTime_passStep chronicle.watch.engine due
      (remaining_ne_nil_of_not_rests isPassing notRests)
    rwa [Engine.act, isPassing]
  exact ⟨⟨move.serves, move.probes_eq, size, keepsTime.interval_eq, keepsTime.now_eq, tick, callsEq,
    reportsEq⟩, keepsTime.lastCheck_eq⟩

/-- With nothing left the pass has been completed. -/
theorem IsTrue.record_finish (isTrue : chronicle.IsTrue router interval)
    (isPassing : chronicle.watch.engine.activity = .passing due pass)
    (accountsEq : chronicle.accounts = account :: earlier)
    (inProgress : InProgress router chronicle.watch.engine.now pass account)
    (inTurn : InTurn account.began earlier) (sound : ∀ account ∈ earlier, account.IsSound router)
    (noneLeft : pass.remaining = [])
    (rests : (chronicle.watch.engine.act .pass).activity = .resting due)
    (probes : (chronicle.watch.engine.act .pass).probes = chronicle.watch.engine.probes)
    (responders : (chronicle.watch.engine.act .pass).responders = chronicle.watch.engine.responders)
    (routerEq : (chronicle.watch.engine.act .pass).router = chronicle.watch.engine.router) :
    (chronicle.record (.act .pass)).IsTrue router interval := by
  obtain ⟨-, nowEq, intervalEq, lastCheckEq⟩ :=
    Engine.passStep_of_noneLeft chronicle.watch.engine due noneLeft
  have stepEq : (chronicle.watch.engine.passStep due pass).2 = chronicle.watch.engine.act .pass := by
    rw [Engine.act, isPassing]
  rw [stepEq] at nowEq intervalEq lastCheckEq
  have shows : chronicle.Shows due [] [] :=
    ⟨Engine.serves_of_router_eq routerEq, probes, by rw [responders], intervalEq, nowEq,
      by rw [Engine.nextTick?, rests], Engine.callsBetween_of_eq responders,
      Engine.sentBetween_of_router_eq routerEq⟩
  have outcomeEq : (chronicle.watch.engine.act .pass).outcome = .completed := by
    rw [Engine.outcome, rests]
  apply isTrue.of_ends shows isPassing accountsEq inTurn sound inProgress.beganLe (Or.inl rests)
  · rw [lastCheckEq, if_pos outcomeEq]
  · rw [outcomeEq, List.append_nil, List.append_nil]
    exact inProgress.isSound_of_completed noneLeft

/-- A call that has broken off ends the pass and leaves the last check as it was. -/
theorem IsTrue.record_break (isTrue : chronicle.IsTrue router interval)
    (isPassing : chronicle.watch.engine.activity = .passing due pass)
    (accountsEq : chronicle.accounts = account :: earlier)
    (inProgress : InProgress router chronicle.watch.engine.now pass account)
    (inTurn : InTurn account.began earlier) (sound : ∀ account ∈ earlier, account.IsSound router)
    (move : PassMove chronicle.watch.engine due pass (chronicle.watch.engine.act .pass))
    (isBroken : (chronicle.watch.engine.act .pass).activity = .broken due)
    (size : (chronicle.watch.engine.act .pass).responders.size =
      chronicle.watch.engine.responders.size)
    (callsEq : chronicle.watch.engine.callsBetween (chronicle.watch.engine.act .pass) = calls)
    (reportsEq : chronicle.watch.engine.sentBetween (chronicle.watch.engine.act .pass) = [])
    (isSound : PassAccount.IsSound router
      ⟨account.began, account.calls ++ calls, account.reports,
        some (chronicle.watch.engine.now, .broken)⟩) :
    (chronicle.record (.act .pass)).IsTrue router interval := by
  obtain ⟨shows, lastCheckEq⟩ := shows_of_not_rests move isPassing (by simp [isBroken])
    (by rw [Engine.nextTick?, isBroken]) size callsEq reportsEq
  have outcomeEq : (chronicle.watch.engine.act .pass).outcome = .broken := by
    rw [Engine.outcome, isBroken]
  apply isTrue.of_ends shows isPassing accountsEq inTurn sound inProgress.beganLe (Or.inr isBroken)
  · rw [outcomeEq, if_neg (by simp), lastCheckEq, isTrue.lastCheck_eq, accountsEq, lastCompletion,
      inProgress.notEnded]
  · rwa [outcomeEq, List.append_nil]

/-- A step of a pass ends it, or brings it nearer to its end, or waits. -/
theorem IsTrue.record_move (isTrue : chronicle.IsTrue router interval)
    (isPassing : chronicle.watch.engine.activity = .passing due pass)
    (accountsEq : chronicle.accounts = account :: earlier)
    (inProgress : InProgress router chronicle.watch.engine.now pass account)
    (inTurn : InTurn account.began earlier) (sound : ∀ account ∈ earlier, account.IsSound router)
    (move : PassMove chronicle.watch.engine due pass (chronicle.watch.engine.act .pass)) :
    (chronicle.record (.act .pass)).IsTrue router interval ∧
      ((chronicle.watch.engine.act .pass).activity = .resting due ∨
        (chronicle.watch.engine.act .pass).activity = .broken due ∨
        ∃ after, (chronicle.watch.engine.act .pass).activity = .passing due after ∧
          (after.rank < pass.rank ∨ ¬ chronicle.watch.engine.IsFree pass)) := by
  have goesOn {after : Pass} {calls : List (Nat × String × Call)} {reports : List (Message Float)}
      (activity : (chronicle.watch.engine.act .pass).activity = .passing due after)
      (size : (chronicle.watch.engine.act .pass).responders.size =
        chronicle.watch.engine.responders.size)
      (callsEq : chronicle.watch.engine.callsBetween (chronicle.watch.engine.act .pass) = calls)
      (sends : chronicle.watch.engine.sentBetween (chronicle.watch.engine.act .pass) = reports)
      (inProgressThen : InProgress router chronicle.watch.engine.now after
        ⟨account.began, account.calls ++ calls, account.reports ++ reports, none⟩) :
      (chronicle.record (.act .pass)).IsTrue router interval := by
    obtain ⟨shows, lastCheckEq⟩ := shows_of_not_rests move isPassing (by simp [activity])
      (by rw [Engine.nextTick?, activity]) size callsEq sends
    exact isTrue.of_goesOn shows isPassing accountsEq inTurn sound inProgress.notEnded activity
      lastCheckEq inProgressThen
  cases move with
  | finish noneLeft rests probes responders routerEq =>
      exact ⟨isTrue.record_finish isPassing accountsEq inProgress inTurn sound noneLeft rests probes
        responders routerEq, Or.inl rests⟩
  | @ask host probe later responder after noneInHand isNext isResponder goes inHand laterEq askedBreaks
      responders routerEq lower =>
      refine ⟨goesOn goes.activity_eq ?_ (Engine.callsBetween_of_count isResponder responders)
        (Engine.sentBetween_of_router_eq routerEq) ?_,
        Or.inr (Or.inr ⟨after, goes.activity_eq, Or.inl lower⟩)⟩
      · rw [responders, Array.size_setIfInBounds]
      · rw [List.append_nil]
        exact inProgress.ask noneInHand isNext inHand laterEq askedBreaks
  | @askBroken host probe later responder noneInHand isNext isResponder breaks notBreaking isBroken
      probes responders routerEq =>
      refine ⟨isTrue.record_break isPassing accountsEq inProgress inTurn sound
        (.askBroken noneInHand isNext isResponder breaks notBreaking isBroken probes responders routerEq)
        isBroken (by rw [responders, Array.size_setIfInBounds])
        (Engine.callsBetween_of_count isResponder responders)
        (Engine.sentBetween_of_router_eq routerEq) ?_, Or.inr (Or.inl isBroken)⟩
      exact inProgress.isSound_of_askBroken noneInHand isNext breaks
  | breakOff isBreaking isBroken probes responders routerEq =>
      refine ⟨isTrue.record_break isPassing accountsEq inProgress inTurn sound
        (.breakOff isBreaking isBroken probes responders routerEq) isBroken (by rw [responders])
        (Engine.callsBetween_of_eq responders) (Engine.sentBetween_of_router_eq routerEq) ?_,
        Or.inr (Or.inl isBroken)⟩
      rw [List.append_nil]
      exact inProgress.isSound_of_isBreaking isBreaking
  | @send host key amount rest after dispatch isFirst goes inHand laterEq sameBreaks responders isSent
      routerEq lower =>
      have sends := Engine.sentBetween_of_send? isSent routerEq
      rw [isTrue.served.bucketOf_eq] at sends
      refine ⟨goesOn goes.activity_eq (by rw [responders]) (Engine.callsBetween_of_eq responders)
        sends ?_, Or.inr (Or.inr ⟨after, goes.activity_eq, Or.inl lower⟩)⟩
      rw [List.append_nil]
      exact inProgress.send isFirst inHand laterEq sameBreaks
  | @go after goes inHand laterEq sameBreaks responders routerEq lower =>
      refine ⟨goesOn goes.activity_eq (by rw [responders]) (Engine.callsBetween_of_eq responders)
        (Engine.sentBetween_of_router_eq routerEq) ?_,
        Or.inr (Or.inr ⟨after, goes.activity_eq, Or.inl lower⟩)⟩
      rw [List.append_nil, List.append_nil]
      exact inProgress.go inHand laterEq sameBreaks
  | wait isBlocked goes responders routerEq =>
      refine ⟨goesOn goes.activity_eq (by rw [responders]) (Engine.callsBetween_of_eq responders)
        (Engine.sentBetween_of_router_eq_or_wait routerEq) ?_,
        Or.inr (Or.inr ⟨pass, goes.activity_eq, Or.inr isBlocked⟩)⟩
      rw [List.append_nil, List.append_nil]
      exact inProgress.go rfl rfl Iff.rfl

end Steps

/-- A step of a pass ends it, or brings it nearer to its end, or waits. -/
theorem IsTrue.record_pass (isTrue : chronicle.IsTrue router interval) {due : Nat} {pass : Pass}
    (isPassing : chronicle.watch.engine.activity = .passing due pass) :
    (chronicle.record (.act .pass)).IsTrue router interval ∧
      ((chronicle.watch.engine.act .pass).activity = .resting due ∨
        (chronicle.watch.engine.act .pass).activity = .broken due ∨
        ∃ after, (chronicle.watch.engine.act .pass).activity = .passing due after ∧
          (after.rank < pass.rank ∨ ¬ chronicle.watch.engine.IsFree pass)) := by
  cases isTrue.phase with
  | between activity =>
      rw [isPassing] at activity
      rcases activity with rests | isBroken
      · cases rests
      · cases isBroken
  | within activity accountsEq inProgress inTurn sound =>
      rw [isPassing] at activity
      cases activity
      have stepEq : (chronicle.watch.engine.passStep due pass).2 =
          chronicle.watch.engine.act .pass := by
        rw [Engine.act, isPassing]
      have hosts : ∀ next ∈ pass.later, ∃ responder,
          chronicle.watch.engine.responders[next.1]? = some responder := by
        intro next member
        have known : next.1 < chronicle.watch.engine.responders.size := by
          rw [isTrue.size_eq]
          exact Discovery.lt_of_mem_planOf (inProgress.course.suffix.subset member)
        exact ⟨_, Array.getElem?_eq_getElem known⟩
      have move := Engine.passMove_passStep isPassing ⟨hosts, inProgress.finite⟩
      rw [stepEq] at move
      exact isTrue.record_move isPassing accountsEq inProgress inTurn sound move

theorem isQuiet_of_stays (isTrue : chronicle.IsTrue router interval) {action : Action}
    (stays : chronicle.watch.engine.act action = chronicle.watch.engine) :
    IsQuiet router chronicle (chronicle.record (.act action)) := by
  have engineEq : (chronicle.watch.occur (.act action)).engine = chronicle.watch.engine := stays
  constructor
  case served =>
    exact isTrue.served.act (by rw [stays]) (Engine.serves_of_router_eq (by rw [stays]))
  case accounts_eq =>
    apply accounts_record_of_quiet
    · rw [engineEq]
    · rw [engineEq]
      exact id
    · exact Engine.callsBetween_of_eq (by rw [stays])
    · cases action <;> first | rfl | exact Engine.sentBetween_of_router_eq (by rw [stays])
  case reported_eq =>
    rw [watch_record, Watch.occur, Watch.sentBy_act, stays, Engine.sentBetween_of_router_eq rfl,
      ite_self, List.append_nil]
  case activity => exact Or.inl (by rw [watch_record, engineEq])
  all_goals rw [watch_record, engineEq]

/-- What happens does not concern passes, or it begins the one that is due, or it is a step of
the one that goes on. -/
theorem IsTrue.isQuiet_or (isTrue : chronicle.IsTrue router interval) (occurrence : Occurrence) :
    IsQuiet router chronicle (chronicle.record occurrence) ∨
      (occurrence = .act .start ∧ ∃ due, chronicle.watch.engine.activity = .resting due ∧
        due ≤ chronicle.watch.engine.now) ∨
      occurrence = .act .pass ∧ ∃ due pass, chronicle.watch.engine.activity = .passing due pass := by
  cases occurrence with
  | tell => exact Or.inl (isQuiet_tell isTrue)
  | change host responder => exact Or.inl (isQuiet_change isTrue host responder)
  | act action =>
      by_cases isPass : action = .pass
      · subst isPass
        by_cases isPassing : ∃ due pass, chronicle.watch.engine.activity = .passing due pass
        · exact Or.inr (Or.inr ⟨rfl, isPassing⟩)
        · push Not at isPassing
          have stays : chronicle.watch.engine.act .pass = chronicle.watch.engine := by
            dsimp only [Engine.act]
            split
            · next due pass activity => exact absurd activity (isPassing due pass)
            · rfl
          exact Or.inl (isQuiet_of_stays isTrue stays)
      by_cases isStart : action = .start
      · subst isStart
        by_cases isDue : ∃ due, chronicle.watch.engine.activity = .resting due ∧
            due ≤ chronicle.watch.engine.now
        · exact Or.inr (Or.inl ⟨rfl, isDue⟩)
        · push Not at isDue
          have stays : chronicle.watch.engine.act .start = chronicle.watch.engine := by
            dsimp only [Engine.act]
            split
            · next due rests => rw [if_neg (Nat.not_le.mpr (isDue due rests))]
            · rfl
          exact Or.inl (isQuiet_of_stays isTrue stays)
      · have outside : action.isOutside = true := by
          cases action <;> first | rfl | exact absurd rfl isPass | exact absurd rfl isStart
        exact Or.inl (isQuiet_act isTrue isPass
          (Engine.activity_act_of_isOutside chronicle.watch.engine outside))

/-- Whatever happens, the chronicle stays true. -/
theorem IsTrue.record (isTrue : chronicle.IsTrue router interval) (positive : 0 < interval)
    (occurrence : Occurrence) : (chronicle.record occurrence).IsTrue router interval := by
  rcases isTrue.isQuiet_or occurrence with
    quiet | ⟨rfl, due, rests, isDue⟩ | ⟨rfl, due, pass, isPassing⟩
  · exact isTrue.of_isQuiet quiet
  · exact (isTrue.record_start rests isDue positive).1
  · exact (isTrue.record_pass isPassing).1

end Chronicle

end CacheRouting
