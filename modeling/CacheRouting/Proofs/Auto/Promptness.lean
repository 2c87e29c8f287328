import CacheRouting.Proofs.Auto.Clock
import CacheRouting.Proofs.Auto.Chronicle
import CacheRouting.Proofs.Auto.Turns

/-!
# Passes begin when they are due

The rounds are woken when a pass comes to its end and when the clock reaches the time
of the next one.  They never step back and nobody stands in line twice, so their turn
comes after no more than two others.  The clock waits for them: it jumps only while
nobody stands in line, and no further than to the time at which a pass is due.
-/

namespace CacheRouting

namespace Engine

theorem activity_receive (engine : Engine) (due : Nat) (pass : Pass) (host : Nat) (probe : String)
    (rest : List (Nat × String)) (reply : Reply) :
    ∃ next, (engine.receive due pass host probe rest reply).activity = .passing due next := by
  unfold receive
  dsimp only
  split <;> exact ⟨_, rfl⟩

theorem over_or_passing_hear (engine : Engine) (due : Nat) (pass : Pass) (host : Nat) (probe : String)
    (rest : List (Nat × String)) (answer : Answer) :
    (engine.hear due pass host probe rest answer).1 = .over ∨
      ∃ next, (engine.hear due pass host probe rest answer).2.activity = .passing due next := by
  cases answer with
  | broken => exact Or.inl rfl
  | replied reply => exact Or.inr (activity_receive ..)

theorem over_or_passing_ask (engine : Engine) (due : Nat) (pass : Pass) (host : Nat) (probe : String)
    (rest : List (Nat × String)) (responder : Responder) :
    (engine.ask due pass host probe rest responder).1 = .over ∨
      ∃ next, (engine.ask due pass host probe rest responder).2.activity = .passing due next := by
  unfold ask
  dsimp only
  split
  · exact over_or_passing_hear ..
  · exact Or.inr ⟨_, rfl⟩

theorem activity_reportEntry {engine : Engine} {due : Nat} {pass : Pass}
    (isPassing : engine.activity = .passing due pass) (host : Nat) (key : String) (amount : Float)
    (entries : List (String × Float)) :
    ∃ next, (engine.reportEntry due pass host key amount entries).2.activity = .passing due next := by
  unfold reportEntry
  dsimp only
  split
  · split
    · exact ⟨_, rfl⟩
    · exact ⟨pass, isPassing⟩
  · exact ⟨_, rfl⟩

/-- After a step a pass goes on, unless it says that it is over. -/
theorem over_or_passing {engine : Engine} {due : Nat} {pass : Pass}
    (isPassing : engine.activity = .passing due pass) :
    (engine.passStep due pass).1 = .over ∨
      ∃ next, (engine.passStep due pass).2.activity = .passing due next := by
  unfold passStep
  split
  · exact Or.inl rfl
  · split
    · split
      · exact over_or_passing_ask ..
      · exact Or.inr ⟨_, rfl⟩
    · split
      · exact over_or_passing_hear ..
      · exact Or.inr ⟨pass, isPassing⟩
    · exact Or.inr ⟨_, rfl⟩
    · exact Or.inr (activity_reportEntry isPassing ..)

/-- A pass that neither goes on nor has been stopped is yet to come. -/
theorem awaits_of_nextTick? {engine : Engine} {due : Nat} (tick : engine.nextTick? = some due)
    (notPassing : engine.isPassing = false) : engine.Awaits due := by
  unfold nextTick? at tick
  split at tick
  · next isResting => exact Or.inl (Option.some.inj tick ▸ isResting)
  · next isPassing =>
    rw [Engine.isPassing, isPassing] at notPassing
    cases notPassing
  · next isBroken => exact Or.inr (Option.some.inj tick ▸ isBroken)
  · cases tick

theorem not_awaits_of_passing {engine : Engine} {later : Nat} {pass : Pass}
    (isPassing : engine.activity = .passing later pass) (due : Nat) : ¬ engine.Awaits due := by
  rintro (isResting | isBroken)
  · cases isPassing.symm.trans isResting
  · cases isPassing.symm.trans isBroken

theorem not_awaits_endRounds (engine : Engine) (due : Nat) : ¬ engine.endRounds.Awaits due := by
  unfold endRounds
  split
  · rintro (isResting | isBroken) <;> contradiction
  · next isStopping =>
    rintro (isResting | isBroken)
    · cases isStopping.symm.trans isResting
    · cases isStopping.symm.trans isBroken
  · rintro (isResting | isBroken) <;> contradiction

end Engine

namespace Runner

variable {runner next : Runner} {task other : Participant}

def line (runner : Runner) : List Participant :=
  runner.ready ++ runner.deferred

/-- Nobody stands in line twice, and the rounds never step back. -/
structure InOrder (runner : Runner) : Prop where
  nodup : runner.line.Nodup
  holds : .rounds ∉ runner.deferred

theorem ready_wake_prefix (runner : Runner) (task : Participant) :
    runner.ready <+: (runner.wake task).ready := by
  unfold wake
  split
  · exact List.prefix_rfl
  · exact List.prefix_append ..

theorem deferred_wake (runner : Runner) (task : Participant) :
    (runner.wake task).deferred = runner.deferred := by
  unfold wake
  split <;> rfl

theorem mem_line_wake : other ∈ (runner.wake task).line ↔ other ∈ runner.line ∨ other = task := by
  unfold wake
  split
  · next stands =>
    have member : task ∈ runner.line := List.mem_append.mpr stands
    exact ⟨Or.inl, fun either => either.elim id fun same => same ▸ member⟩
  · simp only [line, List.mem_append, List.mem_singleton]
    tauto

theorem InOrder.wake (inOrder : runner.InOrder) (task : Participant) : (runner.wake task).InOrder where
  nodup := by
    unfold Runner.wake
    split
    · exact inOrder.nodup
    · next absent =>
      have notMember : task ∉ runner.line := fun member => absent (List.mem_append.mp member)
      have behind : (runner.ready ++ [task] ++ runner.deferred).Perm (task :: runner.line) := by
        rw [List.append_assoc]
        exact List.perm_middle
      exact behind.nodup_iff.mpr (List.nodup_cons.mpr ⟨notMember, inOrder.nodup⟩)
  holds := by
    rw [deferred_wake]
    exact inOrder.holds

theorem InOrder.rounds_mem_wake (inOrder : runner.InOrder) : .rounds ∈ (runner.wake .rounds).ready := by
  have member : .rounds ∈ (runner.wake .rounds).line := mem_line_wake.mpr (Or.inr rfl)
  exact (List.mem_append.mp member).resolve_right (inOrder.wake .rounds).holds

theorem InOrder.defer (inOrder : runner.InOrder) (absent : task ∉ runner.line)
    (notRounds : .rounds ≠ task) : (runner.defer task).InOrder where
  nodup := List.perm_middle.nodup_iff.mpr (List.nodup_cons.mpr ⟨absent, inOrder.nodup⟩)
  holds := List.not_mem_cons_of_ne_of_not_mem notRounds inOrder.holds

theorem InOrder.resume (inOrder : runner.InOrder) : runner.resume.InOrder where
  nodup := by
    rw [line, Runner.resume, List.append_nil]
    exact inOrder.nodup
  holds := List.not_mem_nil

/-- Whoever has a turn has left the line. -/
theorem InOrder.of_head {ready : List Participant} (inOrder : runner.InOrder)
    (hasNext : runner.ready = task :: ready) :
    { runner with ready }.InOrder ∧ task ∉ { runner with ready }.line := by
  have nodup := inOrder.nodup
  rw [line, hasNext, List.cons_append, List.nodup_cons] at nodup
  exact ⟨⟨nodup.2, inOrder.holds⟩, nodup.1⟩

theorem InOrder.length_ready_le (inOrder : runner.InOrder) : runner.ready.length ≤ 3 := by
  have nodup : runner.ready.Nodup := (List.nodup_append.mp inOrder.nodup).1
  have subset : runner.ready ⊆ [.worker, .rounds, .pass] := by
    intro task _
    cases task <;> decide
  exact (List.subperm_of_subset nodup subset).length_le

/-- Discovery, the hosts and the clock stay as they are, and whoever comes into line stands
behind. -/
structure Spares (runner next : Runner) : Prop where
  activity_eq : next.engine.activity = runner.engine.activity
  responders_eq : next.engine.responders = runner.engine.responders
  now_eq : next.engine.now = runner.engine.now
  plan_eq : next.engine.plan = runner.engine.plan
  ready_prefix : runner.ready <+: next.ready
  inOrder : runner.InOrder → next.InOrder

theorem spares_of_eq (activity : next.engine.activity = runner.engine.activity)
    (responders : next.engine.responders = runner.engine.responders)
    (now : next.engine.now = runner.engine.now) (plan : next.engine.plan = runner.engine.plan)
    (ready : next.ready = runner.ready) (deferred : next.deferred = runner.deferred) :
    runner.Spares next where
  activity_eq := activity
  responders_eq := responders
  now_eq := now
  plan_eq := plan
  ready_prefix := ready ▸ List.prefix_rfl
  inOrder := by
    rintro ⟨nodup, holds⟩
    rw [line, ← ready, ← deferred] at nodup
    rw [← deferred] at holds
    exact ⟨nodup, holds⟩

theorem Spares.trans {middle : Runner} (first : runner.Spares middle) (second : middle.Spares next) :
    runner.Spares next where
  activity_eq := second.activity_eq.trans first.activity_eq
  responders_eq := second.responders_eq.trans first.responders_eq
  now_eq := second.now_eq.trans first.now_eq
  plan_eq := second.plan_eq.trans first.plan_eq
  ready_prefix := first.ready_prefix.trans second.ready_prefix
  inOrder := fun inOrder => second.inOrder (first.inOrder inOrder)

theorem spares_wake (runner : Runner) (task : Participant) : runner.Spares (runner.wake task) where
  activity_eq := by rw [engine_wake]
  responders_eq := by rw [engine_wake]
  now_eq := by rw [engine_wake]
  plan_eq := by rw [engine_wake]
  ready_prefix := ready_wake_prefix runner task
  inOrder := fun inOrder => inOrder.wake task

theorem spares_wakeSender (runner : Runner) (sender : Option Sender) :
    runner.Spares (runner.wakeSender sender) := by
  unfold wakeSender
  split
  · exact spares_wake runner .pass
  · exact spares_of_eq rfl rfl rfl rfl rfl rfl
  · exact spares_of_eq rfl rfl rfl rfl rfl rfl

theorem mem_line_of_wakeSender {sender : Option Sender} (notPass : task ≠ .pass)
    (member : task ∈ (runner.wakeSender sender).line) : task ∈ runner.line := by
  unfold wakeSender at member
  split at member
  · exact (mem_line_wake.mp member).resolve_right notPass
  · exact member
  · exact member

/-- The worker that takes a message does not come into line by that. -/
theorem spares_of_workOnce? (works : runner.workOnce? = some next) :
    runner.Spares next ∧ (.worker ∈ next.line → .worker ∈ runner.line) := by
  unfold workOnce? at works
  split at works
  · cases works
  · next engine engineWorks =>
    obtain ⟨dispatch, -, rfl⟩ := Option.map_eq_some_iff.mp engineWorks
    cases works
    have worked : runner.Spares { runner with engine := runner.engine.setDispatch dispatch } :=
      spares_of_eq rfl rfl rfl rfl rfl rfl
    have comesBy (sender : Option Sender) (member : .worker ∈
        ({ runner with engine := runner.engine.setDispatch dispatch }.wakeSender sender).line) :
        .worker ∈ runner.line := by
      have stood := mem_line_of_wakeSender (by decide) member
      exact stood
    exact ⟨(worked.trans (spares_wakeSender _ _)).trans (spares_of_eq rfl rfl rfl rfl rfl rfl),
      comesBy runner.engine.router.dispatch.mailbox.waiting.head?⟩

theorem spares_turnOfWorker (turn : Nat) (absent : .worker ∉ runner.line) :
    runner.Spares (turnOfWorker turn runner) := by
  induction turn generalizing runner with
  | zero =>
      have inOrder (inOrder : runner.InOrder) : (runner.defer .worker).InOrder :=
        inOrder.defer absent (by decide)
      exact ⟨rfl, rfl, rfl, rfl, List.prefix_rfl, inOrder⟩
  | succ turn ih =>
      unfold turnOfWorker
      split
      · next worked works =>
        obtain ⟨spares, comesBy⟩ := spares_of_workOnce? works
        exact spares.trans (ih fun member => absent (comesBy member))
      · split <;> exact spares_of_eq rfl rfl rfl rfl rfl rfl

theorem spares_takeAnswer (runner : Runner) : runner.Spares runner.takeAnswer := by
  unfold takeAnswer
  split
  · exact spares_of_eq rfl rfl rfl rfl rfl rfl
  · split
    · exact spares_of_eq rfl rfl rfl rfl rfl rfl
    · split <;> exact spares_of_eq rfl rfl rfl rfl rfl rfl

theorem spares_handIn (outbox : List Engine.Submission) (runner : Runner) :
    runner.Spares (handIn outbox runner) := by
  induction outbox generalizing runner with
  | nil =>
      have emptied : runner.Spares { runner with outbox := [] } := spares_of_eq rfl rfl rfl rfl rfl rfl
      exact emptied.trans (spares_takeAnswer _)
  | cons submission outbox ih =>
      unfold handIn
      split
      · refine Spares.trans ?_ (ih _)
        exact spares_of_eq rfl rfl rfl rfl rfl rfl
      · dsimp only
        split
        · exact spares_of_eq rfl rfl rfl rfl rfl rfl
        · split
          · next engine sends =>
            obtain ⟨dispatch, -, rfl⟩ := Option.map_eq_some_iff.mp sends
            refine (Spares.trans ?_ (spares_wake _ .worker)).trans (ih _)
            exact spares_of_eq rfl rfl rfl rfl rfl rfl
          · exact spares_of_eq rfl rfl rfl rfl rfl rfl

theorem spares_goOn (runner : Runner) : runner.Spares runner.goOn := by
  unfold goOn
  split
  · exact spares_handIn runner.outbox runner
  · split
    · exact spares_of_eq rfl rfl rfl rfl rfl rfl
    · split
      · exact spares_of_eq rfl rfl rfl rfl rfl rfl
      · refine Spares.trans ?_ (spares_handIn _ _)
        exact spares_of_eq rfl rfl rfl rfl rfl rfl

theorem spares_resume (runner : Runner) : runner.Spares runner.resume :=
  ⟨rfl, rfl, rfl, rfl, List.prefix_append .., InOrder.resume⟩

theorem spares_drop (runner : Runner) : runner.Spares runner.drop := by
  have told : runner.Spares { runner with dropped := true } := spares_of_eq rfl rfl rfl rfl rfl rfl
  unfold drop
  dsimp only
  split <;> exact told.trans (spares_wake _ _)

/-- The rounds stand in line as long as there is something for them to do. -/
structure Attends (runner : Runner) : Prop extends runner.InOrder where
  tells : ∀ due, runner.engine.activity = .broken due → .rounds ∈ runner.ready
  begins : ∀ due, runner.engine.activity = .resting due → due ≤ runner.engine.now →
    .rounds ∈ runner.ready

theorem Attends.of_spares (attends : runner.Attends) (spares : runner.Spares next) : next.Attends where
  toInOrder := spares.inOrder attends.toInOrder
  tells due isBroken :=
    spares.ready_prefix.subset (attends.tells due (spares.activity_eq.symm.trans isBroken))
  begins due isResting isDue :=
    spares.ready_prefix.subset (attends.begins due (spares.activity_eq.symm.trans isResting)
      (isDue.trans_eq spares.now_eq))

theorem InOrder.attends_of_mem (inOrder : runner.InOrder) (stands : .rounds ∈ runner.ready) :
    runner.Attends :=
  ⟨inOrder, fun _ _ => stands, fun _ _ _ => stands⟩

/-- With a pass that goes on, or no more passes to come, there is nothing to do. -/
theorem InOrder.attends_of_not_awaits (inOrder : runner.InOrder)
    (notAwaits : ∀ due, ¬ runner.engine.Awaits due) : runner.Attends where
  toInOrder := inOrder
  tells due isBroken := absurd (Or.inr isBroken) (notAwaits due)
  begins due isResting _ := absurd (Or.inl isResting) (notAwaits due)

theorem Attends.turnOfPass (attends : runner.Attends) (limit turn : Nat)
    (absent : .pass ∉ runner.line) : (turnOfPass limit turn runner).Attends := by
  induction limit generalizing turn runner with
  | zero => exact attends
  | succ limit ih =>
      unfold Runner.turnOfPass
      split
      · next due pass isPassing =>
        have goesOn := Engine.over_or_passing isPassing
        have notOver {progress : PassProgress} {engine : Engine}
            (stepped : runner.engine.passStep due pass = (progress, engine))
            (isNot : progress ≠ .over) : { runner with engine }.Attends := by
          rw [stepped] at goesOn
          obtain ⟨after, passes⟩ := goesOn.resolve_left isNot
          exact InOrder.attends_of_not_awaits ⟨attends.nodup, attends.holds⟩
            (Engine.not_awaits_of_passing passes)
        split
        · refine InOrder.attends_of_not_awaits ?_ (Engine.not_awaits_of_passing isPassing)
          exact attends.toInOrder.defer absent (by decide)
        · dsimp only
          split
          · next engine stepped => exact ih (notOver stepped (by decide)) _ absent
          · next engine stepped =>
            refine ih ((notOver stepped (by decide)).of_spares (spares_wake _ .worker)) _ ?_
            intro member
            exact absent ((mem_line_wake.mp member).resolve_right (by decide))
          · next engine stepped => exact notOver stepped (by decide)
          · next engine stepped =>
            have inOrder : { runner with engine }.InOrder := ⟨attends.nodup, attends.holds⟩
            exact (inOrder.wake .rounds).attends_of_mem inOrder.rounds_mem_wake
      · have stopped : { runner with engine := runner.engine.stopPass }.Attends := by
          refine InOrder.attends_of_not_awaits ⟨attends.nodup, attends.holds⟩ ?_
          rintro due (isResting | isBroken)
          · cases isResting
          · cases isBroken
        exact stopped.of_spares (spares_wake _ .worker)
      · exact attends

theorem InOrder.attends_endRounds (inOrder : runner.InOrder) : runner.endRounds.Attends := by
  unfold Runner.endRounds
  split
  · have ended : { runner with
        engine := runner.engine.endRounds
        deferred := runner.deferred.filter (· != Participant.pass) }.InOrder :=
      { nodup := inOrder.nodup.sublist (List.filter_sublist.append_left _)
        holds := fun member => inOrder.holds (List.mem_of_mem_filter member) }
    exact (ended.attends_of_not_awaits (Engine.not_awaits_endRounds _)).of_spares (spares_wake _ .pass)
  · have ended : { runner with engine := runner.engine.endRounds }.InOrder :=
      ⟨inOrder.nodup, inOrder.holds⟩
    exact (ended.attends_of_not_awaits (Engine.not_awaits_endRounds _)).of_spares (spares_wake _ .worker)

/-- After their turn there is nothing left for the rounds to do. -/
theorem InOrder.attends_turnOfRounds (inOrder : runner.InOrder) : runner.turnOfRounds.Attends := by
  unfold Runner.turnOfRounds
  split
  · exact inOrder.attends_endRounds
  · have told : { runner with engine := runner.engine.tellBroken }.InOrder :=
      ⟨inOrder.nodup, inOrder.holds⟩
    have notBroken := runner.engine.tellBroken_ne_broken
    dsimp only
    split
    · next due isResting =>
      split
      · have begun : { runner with engine := runner.engine.tellBroken.startPass due }.InOrder :=
          ⟨inOrder.nodup, inOrder.holds⟩
        exact (begun.attends_of_not_awaits (Engine.not_awaits_of_passing rfl)).of_spares
          (spares_wake _ .pass)
      · next notDue =>
        refine ⟨told, fun other isBroken => absurd isBroken (notBroken other), ?_⟩
        intro other restsToo isDue
        cases isResting.symm.trans restsToo
        exact absurd isDue notDue
    · next notResting =>
      refine ⟨told, fun other isBroken => absurd isBroken (notBroken other), ?_⟩
      exact fun due isResting => absurd isResting (notResting due)

theorem Attends.turnOf {ready : List Participant} (attends : runner.Attends)
    (hasNext : runner.ready = task :: ready) : ({ runner with ready }.turnOf task).Attends := by
  obtain ⟨taken, absent⟩ := attends.toInOrder.of_head hasNext
  -- the rounds themselves may have left the line with work to do, and do it now
  have others (notRounds : .rounds ≠ task) : { runner with ready }.Attends := by
    have stillStands (stands : .rounds ∈ runner.ready) : .rounds ∈ ready :=
      (List.mem_cons.mp (hasNext ▸ stands)).resolve_left notRounds
    exact ⟨taken, fun due isBroken => stillStands (attends.tells due isBroken),
      fun due isResting isDue => stillStands (attends.begins due isResting isDue)⟩
  cases task with
  | worker => exact (others (by decide)).of_spares (spares_turnOfWorker _ absent)
  | rounds => exact taken.attends_turnOfRounds
  | pass => exact (others (by decide)).turnOfPass _ _ absent

theorem InOrder.attends_wakeTimed (inOrder : runner.InOrder)
    (tells : ∀ due, runner.engine.activity = .broken due → .rounds ∈ runner.ready) :
    runner.wakeTimed.Attends := by
  have postponed (woken : Runner) : woken.Spares
      (if woken.sleepsUntil.any (· ≤ woken.engine.now) then woken.postpone else woken) := by
    split <;> exact spares_of_eq rfl rfl rfl rfl rfl rfl
  unfold wakeTimed
  refine Attends.of_spares ?_ (postponed _)
  split
  · next due isResting =>
    split
    · exact (inOrder.wake .rounds).attends_of_mem inOrder.rounds_mem_wake
    · next notDue =>
      refine ⟨inOrder, tells, ?_⟩
      intro other restsToo isDue
      cases isResting.symm.trans restsToo
      exact absurd isDue notDue
  · next isPassing =>
    have attends := inOrder.attends_of_not_awaits (Engine.not_awaits_of_passing isPassing)
    split
    · exact attends.of_spares (spares_wake _ .pass)
    · exact attends
  · next notResting _ =>
    exact ⟨inOrder, tells, fun due isResting => absurd isResting (notResting due)⟩

theorem Attends.jump? (attends : runner.Attends) (jumps : runner.jump? = some next) :
    next.Attends := by
  obtain ⟨time, -, rfl⟩ := Option.map_eq_some_iff.mp jumps
  exact InOrder.attends_wakeTimed ⟨attends.nodup, attends.holds⟩ attends.tells

theorem Attends.of_move (attends : runner.Attends) (moves : runner.Moves next) : next.Attends := by
  cases moves with
  | turn hasNext => exact attends.turnOf hasNext
  | resume => exact attends.of_spares (spares_resume runner)
  | jump isIdle jumps => exact attends.jump? jumps
  | ask => exact attends.of_spares (spares_of_eq rfl rfl rfl rfl rfl rfl)
  | goOn => exact attends.of_spares (spares_goOn runner)
  | drop => exact attends.of_spares (spares_drop runner)

theorem attends_start (router : AutoRouter Float) (responders : List Responder)
    (options : AutoOptions) (journal : Journal) :
    (start (Engine.start router responders options journal) options).Attends := by
  by_cases isOn : options.discovery = true
  · have readyEq : (start (Engine.start router responders options journal) options).ready =
        [.worker, .rounds] := if_pos isOn
    refine InOrder.attends_of_mem ⟨?_, List.not_mem_nil⟩ ?_
    · rw [line, readyEq]
      exact (by decide : [Participant.worker, .rounds].Nodup)
    · rw [readyEq]
      decide
  · have readyEq : (start (Engine.start router responders options journal) options).ready =
        [.worker] := if_neg isOn
    refine InOrder.attends_of_not_awaits ⟨?_, List.not_mem_nil⟩ ?_
    · rw [line, readyEq]
      exact List.nodup_singleton Participant.worker
    · simp [start, Engine.start, isOn, Engine.Awaits]

/-- Whatever becomes of a runner, its rounds attend. -/
theorem attends_of_moves {router : AutoRouter Float} {responders : List Responder}
    {options : AutoOptions} {journal : Journal}
    (moves : Relation.ReflTransGen Moves
      (start (Engine.start router responders options journal) options) runner) : runner.Attends := by
  induction moves with
  | refl => exact attends_start router responders options journal
  | tail _ moves ih => exact ih.of_move moves

/-- While a pass is yet to come, nobody but the rounds does anything about it. -/
theorem spares_turnOf {due : Nat} (absent : task ∉ runner.line) (notRounds : task ≠ .rounds)
    (awaits : runner.engine.Awaits due) : runner.Spares (runner.turnOf task) := by
  cases task with
  | worker => exact spares_turnOfWorker _ absent
  | rounds => exact absurd rfl notRounds
  | pass =>
      have stays (limit turn : Nat) : turnOfPass limit turn runner = runner := by
        cases limit with
        | zero => rfl
        | succ limit => rcases awaits with activity | activity <;> simp only [turnOfPass, activity]
      rw [turnOf, stays]
      exact spares_of_eq rfl rfl rfl rfl rfl rfl

theorem begins_turnOfRounds {due : Nat} (isHeld : runner.dropped = false)
    (awaits : runner.engine.Awaits due) (isDue : due ≤ runner.engine.now) :
    ∃ later, runner.turnOfRounds.engine.activity =
      .passing later ⟨runner.engine.now, runner.engine.plan, .asking⟩ := by
  have rests := Engine.activity_tellBroken_of_awaits awaits
  obtain ⟨journal, activity, toldEq, -⟩ := runner.engine.tellBroken_eq
  have nowEq : runner.engine.tellBroken.now = runner.engine.now := by rw [toldEq]
  have planEq : runner.engine.tellBroken.plan = runner.engine.plan := by
    rw [toldEq]
    rfl
  have begun : runner.turnOfRounds.engine = runner.engine.tellBroken.startPass due := by
    simp [turnOfRounds, isHeld, rests, nowEq, isDue]
  refine ⟨runner.engine.tellBroken.nextDue due, ?_⟩
  rw [begun, ← nowEq, ← planEq]
  rfl

theorem round_succ {ready : List Participant} (hasNext : runner.ready = task :: ready) (turns : Nat) :
    round (turns + 1) runner = round turns ({ runner with ready }.turnOf task) := by
  rw [round, hasNext]

/-- The rounds begin a pass that is due when all that stand before them have had their turn. -/
theorem InOrder.begins_at_turn {before after : List Participant} {due : Nat}
    (inOrder : runner.InOrder) (isHeld : runner.dropped = false)
    (awaits : runner.engine.Awaits due) (isDue : due ≤ runner.engine.now)
    (readyEq : runner.ready = before ++ .rounds :: after) :
    ∃ later, (round (before.length + 1) runner).engine.activity =
      .passing later ⟨runner.engine.now, runner.engine.plan, .asking⟩ := by
  induction before generalizing runner after with
  | nil =>
      rw [List.length_nil, round_succ readyEq]
      exact begins_turnOfRounds isHeld awaits isDue
  | cons task before ih =>
      obtain ⟨ready, readyIs⟩ : ∃ ready, ready = before ++ Participant.rounds :: after := ⟨_, rfl⟩
      rw [List.cons_append, ← readyIs] at readyEq
      obtain ⟨taken, absent⟩ := inOrder.of_head readyEq
      have notRounds : task ≠ .rounds := by
        rintro rfl
        exact absent (by simp [line, readyIs])
      have spares := spares_turnOf absent notRounds awaits
      have goes := goes_turnOf { runner with ready } task
      rw [List.length_cons, round_succ readyEq]
      generalize Runner.turnOf _ task = next at spares goes ⊢
      obtain ⟨more, readyThen⟩ := spares.ready_prefix
      have awaitsThen : next.engine.Awaits due := by
        rw [Engine.Awaits, spares.activity_eq]
        exact awaits
      have nowEq : next.engine.now = runner.engine.now := spares.now_eq
      have planEq : next.engine.plan = runner.engine.plan := spares.plan_eq
      rw [← nowEq] at isDue ⊢
      rw [← planEq]
      have readyEqThen : next.ready = before ++ Participant.rounds :: (after ++ more) := by
        rw [← readyThen, readyIs, List.append_assoc, List.cons_append]
      exact ih (spares.inOrder taken) (goes.dropped_eq.trans isHeld) awaitsThen isDue readyEqThen

/-- A runner does not let a pass wait that is due. -/
structure IsPrompt (router : AutoRouter Float) (runner : Runner) : Prop where
  /-- One that is due begins within three turns, with all hosts before it, and also if the
  one before was broken off. -/
  begins : ∀ due, runner.engine.nextTick? = some due → runner.engine.isPassing = false →
    due ≤ runner.engine.now → ∃ turns ≤ 3, ∃ later, (round turns runner).engine.activity =
      .passing later ⟨runner.engine.now, PassAccount.fullPlan router, .asking⟩
  /-- With nobody in line none is due yet, and the clock jumps no further than to when one is. -/
  inTime : ∀ due, runner.engine.nextTick? = some due → runner.engine.isPassing = false →
    runner.isIdle = true →
      runner.engine.now < due ∧ ∃ later, runner.jump? = some later ∧ later.engine.now ≤ due

theorem engine_wakeTimed (runner : Runner) : runner.wakeTimed.engine = runner.engine := by
  have postponed (woken : Runner) :
      (if woken.sleepsUntil.any (· ≤ woken.engine.now) then woken.postpone else woken).engine =
        woken.engine := by
    split <;> rfl
  unfold wakeTimed
  refine (postponed _).trans ?_
  split
  · split
    · exact engine_wake ..
    · rfl
  · split
    · exact engine_wake ..
    · rfl
  · rfl

theorem Attends.isPrompt {router : AutoRouter Float} (attends : runner.Attends)
    (isHeld : runner.dropped = false)
    (planEq : runner.engine.plan = PassAccount.fullPlan router) : runner.IsPrompt router where
  begins due tick notPassing isDue := by
    have awaits := Engine.awaits_of_nextTick? tick notPassing
    have stands : .rounds ∈ runner.ready := by
      rcases awaits with isResting | isBroken
      · exact attends.begins due isResting isDue
      · exact attends.tells due isBroken
    obtain ⟨before, after, readyEq⟩ := List.append_of_mem stands
    rw [← planEq]
    have lengthLe := attends.toInOrder.length_ready_le
    rw [readyEq, List.length_append, List.length_cons] at lengthLe
    exact ⟨before.length + 1, by omega,
      attends.toInOrder.begins_at_turn isHeld awaits isDue readyEq⟩
  inTime due tick notPassing idle := by
    have noneReady : runner.ready = [] := by
      simp only [isIdle, Bool.and_eq_true, List.isEmpty_iff] at idle
      exact idle.1.1
    have noRounds : .rounds ∉ runner.ready := by
      rw [noneReady]
      exact List.not_mem_nil
    have isResting : runner.engine.activity = .resting due :=
      (Engine.awaits_of_nextTick? tick notPassing).resolve_right
        fun isBroken => noRounds (attends.tells due isBroken)
    have notDue : runner.engine.now < due :=
      Nat.lt_of_not_le fun isDue => noRounds (attends.begins due isResting isDue)
    have timersEq : runner.timers = due :: runner.sleepsUntil.toList := by
      simp only [timers, isResting, List.singleton_append]
    obtain ⟨time, isMin⟩ : ∃ time, runner.timers.min? = some time :=
      Option.isSome_iff_exists.mp (by simp [timersEq])
    have timeLe : time ≤ due :=
      (List.min?_eq_some_iff.mp isMin).2 due (by simp [timersEq])
    refine ⟨notDue, _, by rw [Runner.jump?, isMin, Option.map_some], ?_⟩
    rw [engine_wakeTimed]
    exact max_le notDue.le timeLe

end Runner

end CacheRouting
