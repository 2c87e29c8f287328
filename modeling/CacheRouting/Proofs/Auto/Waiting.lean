import CacheRouting.Proofs.Auto.Evolution

/-!
# A pass that waits is out of line

A pass waits for a reply that is on its way or for room in the mailbox.  The clock and
the worker wake it when it can go on, and nothing else puts it in line.  So whenever a
pass stands in line there is something for it to do.
-/

namespace CacheRouting

namespace Mailbox

variable {Sender Message : Type} [DecidableEq Sender] {mailbox next : Mailbox Sender Message}
  {sender other : Sender} {message : Message}

theorem waiting_of_send? (sent : mailbox.send? sender message = some next) :
    next.waiting = mailbox.waiting := by
  unfold send? at sent
  split at sent
  · cases sent
    rfl
  · split at sent
    · cases sent
      rfl
    · cases sent

omit [DecidableEq Sender] in
theorem waiting_of_take? (taken : mailbox.take? = some (message, next)) :
    next.waiting = mailbox.waiting.tail := by
  unfold take? at taken
  split at taken
  · cases taken
  · split at taken
    · next isEmpty =>
      cases taken
      rw [isEmpty]
      rfl
    · next isWaiting =>
      cases taken
      rw [isWaiting]
      rfl

theorem mem_waiting_wait :
    other ∈ (mailbox.wait sender).waiting ↔ other = sender ∨ other ∈ mailbox.waiting := by
  unfold wait
  split
  · next waits => exact ⟨Or.inr, fun either => either.elim (fun same => same ▸ waits) id⟩
  · simp only [List.mem_append, List.mem_singleton]
    exact or_comm

theorem nodup_waiting_wait (nodup : mailbox.waiting.Nodup) : (mailbox.wait sender).waiting.Nodup := by
  unfold wait
  split
  · exact nodup
  · next notWaiting =>
    refine List.nodup_append.mpr ⟨nodup, List.nodup_singleton sender, ?_⟩
    rintro other member fresh isNew rfl
    rw [List.mem_singleton.mp isNew] at member
    exact notWaiting member

end Mailbox

namespace Engine

variable {engine next : Engine}

def waiting (engine : Engine) : List Sender :=
  engine.router.dispatch.mailbox.waiting

def AwaitsReply (engine : Engine) : Prop :=
  ∃ due pass time answer, engine.activity = .passing due pass ∧
    pass.stage = .awaiting time answer ∧ engine.now < time

def Reports (engine : Engine) : Prop :=
  ∃ due pass entries, engine.activity = .passing due pass ∧ pass.stage = .reporting entries

def AwaitsRoom (engine : Engine) : Prop :=
  engine.isPassing = true ∧ .discovery ∈ engine.waiting

theorem not_reports_of_not_passing (notPassing : engine.isPassing = false) : ¬ engine.Reports := by
  rintro ⟨due, pass, entries, isPassing, -⟩
  rw [Engine.isPassing, isPassing] at notPassing
  cases notPassing

theorem not_reports_of_stage {due time : Nat} {pass : Pass} {answer : Answer}
    (isPassing : engine.activity = .passing due pass) (isAwaiting : pass.stage = .awaiting time answer) :
    ¬ engine.Reports := by
  rintro ⟨other, otherPass, entries, passesToo, isReporting⟩
  cases isPassing.symm.trans passesToo
  cases isAwaiting.symm.trans isReporting

theorem AwaitsReply.not_reports (awaits : engine.AwaitsReply) : ¬ engine.Reports := by
  obtain ⟨due, pass, time, reply, isPassing, isAwaiting, -⟩ := awaits
  exact not_reports_of_stage isPassing isAwaiting

theorem AwaitsReply.of_eq (awaits : next.AwaitsReply) (activity : next.activity = engine.activity)
    (nowLe : engine.now ≤ next.now) : engine.AwaitsReply := by
  obtain ⟨due, pass, time, reply, isPassing, isAwaiting, notYet⟩ := awaits
  exact ⟨due, pass, time, reply, activity.symm.trans isPassing, isAwaiting, nowLe.trans_lt notYet⟩

theorem not_awaitsReply_of_stage {due : Nat} {pass : Pass} (isPassing : engine.activity = .passing due pass)
    (notAwaiting : ∀ time reply, pass.stage ≠ .awaiting time reply) : ¬ engine.AwaitsReply := by
  rintro ⟨other, otherPass, time, reply, passesToo, isAwaiting, -⟩
  cases isPassing.symm.trans passesToo
  exact notAwaiting time reply isAwaiting

theorem not_awaitsReply_of_not_passing (notPassing : engine.isPassing = false) :
    ¬ engine.AwaitsReply := by
  rintro ⟨due, pass, time, reply, isPassing, -⟩
  rw [Engine.isPassing, isPassing] at notPassing
  cases notPassing

theorem not_awaitsReply_receive (engine : Engine) (due : Nat) (pass : Pass) (host : Nat)
    (probe : String) (rest : List (Nat × String)) (reply : Reply) :
    ¬ (engine.receive due pass host probe rest reply).AwaitsReply := by
  unfold receive
  dsimp only
  split <;> exact not_awaitsReply_of_stage rfl nofun

theorem waiting_receive (engine : Engine) (due : Nat) (pass : Pass) (host : Nat) (probe : String)
    (rest : List (Nat × String)) (reply : Reply) :
    (engine.receive due pass host probe rest reply).waiting = engine.waiting := by
  rw [waiting, router_receive, waiting]

/-- What a step of a pass does about waiting: the pass goes on or is over, or it waits for a
reply, or it waits for room. -/
inductive WaitsAfter (engine : Engine) : PassProgress → Engine → Prop
  | goesOn {progress : PassProgress} {next : Engine} (waiting : next.waiting = engine.waiting)
      (notAwaiting : ¬ next.AwaitsReply) : WaitsAfter engine progress next
  | reply {next : Engine} (waiting : next.waiting = engine.waiting) : WaitsAfter engine .waits next
  | room (reports : engine.Reports) :
      WaitsAfter engine .waits (engine.waitForRoom .discovery)

theorem waitsAfter_hear (same : next.waiting = engine.waiting) (due : Nat) (pass : Pass) (host : Nat)
    (probe : String) (rest : List (Nat × String)) (answer : Answer) :
    engine.WaitsAfter (next.hear due pass host probe rest answer).1
      (next.hear due pass host probe rest answer).2 := by
  cases answer with
  | broken => exact .goesOn same (not_awaitsReply_of_not_passing rfl)
  | replied reply =>
      exact .goesOn ((waiting_receive ..).trans same) (not_awaitsReply_receive _ _ _ _ _ _ _)

theorem waitsAfter_ask (engine : Engine) (due : Nat) (pass : Pass) (host : Nat) (probe : String)
    (rest : List (Nat × String)) (responder : Responder) :
    engine.WaitsAfter (engine.ask due pass host probe rest responder).1
      (engine.ask due pass host probe rest responder).2 := by
  unfold ask
  dsimp only
  split
  · apply waitsAfter_hear
    rfl
  · exact .reply rfl

theorem waitsAfter_reportEntry {due : Nat} {pass : Pass} {entries : List (String × Float)}
    (isPassing : engine.activity = .passing due pass) (isReporting : pass.stage = .reporting entries)
    (host : Nat) (key : String) (amount : Float) (rest : List (String × Float)) :
    engine.WaitsAfter (engine.reportEntry due pass host key amount rest).1
      (engine.reportEntry due pass host key amount rest).2 := by
  unfold reportEntry
  dsimp only
  split
  · split
    · next dispatch sends =>
      obtain ⟨mailbox, mailboxSends, rfl⟩ := Option.map_eq_some_iff.mp sends
      exact .goesOn (Mailbox.waiting_of_send? mailboxSends) (not_awaitsReply_of_stage rfl nofun)
    · exact .room ⟨due, pass, entries, isPassing, isReporting⟩
  · exact .goesOn rfl (not_awaitsReply_of_stage rfl nofun)

theorem waitsAfter_passStep {due : Nat} {pass : Pass} (isPassing : engine.activity = .passing due pass) :
    engine.WaitsAfter (engine.passStep due pass).1 (engine.passStep due pass).2 := by
  unfold passStep
  split
  · refine .goesOn ?_ (not_awaitsReply_of_not_passing rfl)
    obtain ⟨journal, notedEq⟩ := noteOrders_eq engine
    simp only [finishPass, note, notedEq]
    rfl
  · split
    · next isAsking =>
      split
      · exact waitsAfter_ask ..
      · refine .goesOn rfl (not_awaitsReply_of_stage rfl fun time reply isAwaiting => ?_)
        cases isAsking.symm.trans isAwaiting
    · split
      · exact waitsAfter_hear rfl ..
      · exact .reply rfl
    · refine .goesOn rfl (not_awaitsReply_of_stage rfl fun time reply isAwaiting => ?_)
      cases isAwaiting
    · next isReporting => exact waitsAfter_reportEntry isPassing isReporting ..

theorem waiting_of_work? (works : engine.work? = some next) :
    next.waiting = engine.waiting.tail ∧ next.activity = engine.activity ∧ next.now = engine.now := by
  obtain ⟨dispatch, dispatchWorks, rfl⟩ := Option.map_eq_some_iff.mp works
  obtain ⟨message, mailbox, takes, mailboxEq⟩ := Dispatch.queue_of_work? dispatchWorks
  refine ⟨?_, rfl, rfl⟩
  change dispatch.mailbox.waiting = _
  rw [mailboxEq]
  exact Mailbox.waiting_of_take? takes

theorem waiting_of_send? {message : Message Float} (sends : engine.send? message = some next) :
    next.waiting = engine.waiting ∧ next.activity = engine.activity ∧ next.now = engine.now := by
  obtain ⟨dispatch, dispatchSends, rfl⟩ := Option.map_eq_some_iff.mp sends
  obtain ⟨mailbox, mailboxSends, rfl⟩ := Option.map_eq_some_iff.mp dispatchSends
  exact ⟨Mailbox.waiting_of_send? mailboxSends, rfl, rfl⟩

end Engine

namespace Runner

variable {runner next : Runner} {task : Participant}

/-- A pass that waits is out of line, and discovery waits for room only while a pass reports or
is to stop. -/
structure IsPatient (runner : Runner) : Prop where
  nodup : runner.engine.waiting.Nodup
  reply : .pass ∈ runner.line → ¬ runner.engine.AwaitsReply
  room : .discovery ∈ runner.engine.waiting →
    runner.engine.activity = .stopping ∨ runner.engine.Reports ∧ .pass ∉ runner.line

theorem patient_of_noneWaits (nodup : runner.engine.waiting.Nodup)
    (noneWaits : .discovery ∉ runner.engine.waiting) (notAwaiting : ¬ runner.engine.AwaitsReply) :
    runner.IsPatient :=
  ⟨nodup, fun _ => notAwaiting, fun waits => absurd waits noneWaits⟩

/-- With nothing to wait for, it does not matter who is put in line. -/
theorem patient_wake (nodup : runner.engine.waiting.Nodup)
    (noneWaits : .discovery ∉ runner.engine.waiting) (notAwaiting : ¬ runner.engine.AwaitsReply) :
    (runner.wake task).IsPatient := by
  apply patient_of_noneWaits <;> rwa [engine_wake]

theorem IsPatient.noneWaits (patient : runner.IsPatient)
    (notStopping : runner.engine.activity ≠ .stopping) (notReporting : ¬ runner.engine.Reports) :
    .discovery ∉ runner.engine.waiting := by
  intro waits
  rcases patient.room waits with isStopping | ⟨reports, -⟩
  · exact notStopping isStopping
  · exact notReporting reports

theorem IsPatient.noneWaits_of_awaits (patient : runner.IsPatient) {due : Nat}
    (awaits : runner.engine.Awaits due) : .discovery ∉ runner.engine.waiting := by
  apply patient.noneWaits
  · rcases awaits with activity | activity <;> simp [activity]
  · apply Engine.not_reports_of_not_passing
    rcases awaits with activity | activity <;> rw [Engine.isPassing, activity]

structure Skips (runner next : Runner) : Prop where
  activity_eq : next.engine.activity = runner.engine.activity
  now_le : runner.engine.now ≤ next.engine.now
  nodup : runner.engine.waiting.Nodup → next.engine.waiting.Nodup
  room : .discovery ∈ next.engine.waiting → .discovery ∈ runner.engine.waiting
  line : .pass ∈ next.line → .pass ∈ runner.line

theorem IsPatient.of_skips (patient : runner.IsPatient) (skips : runner.Skips next) :
    next.IsPatient where
  nodup := skips.nodup patient.nodup
  reply member awaits := patient.reply (skips.line member) (awaits.of_eq skips.activity_eq skips.now_le)
  room waits := by
    rw [Engine.Reports, skips.activity_eq]
    exact (patient.room (skips.room waits)).imp_right fun ⟨reports, absent⟩ =>
      ⟨reports, fun member => absent (skips.line member)⟩

theorem skips_of_eq (activity : next.engine.activity = runner.engine.activity)
    (now : next.engine.now = runner.engine.now) (waiting : next.engine.waiting = runner.engine.waiting)
    (line : next.line = runner.line) : runner.Skips next where
  activity_eq := activity
  now_le := now.ge
  nodup := waiting ▸ id
  room := waiting ▸ id
  line := line ▸ id

theorem Skips.trans {middle : Runner} (first : runner.Skips middle) (second : middle.Skips next) :
    runner.Skips next where
  activity_eq := second.activity_eq.trans first.activity_eq
  now_le := first.now_le.trans second.now_le
  nodup nodup := second.nodup (first.nodup nodup)
  room waits := first.room (second.room waits)
  line member := first.line (second.line member)

theorem skips_wake (runner : Runner) (notPass : task ≠ .pass) : runner.Skips (runner.wake task) where
  activity_eq := by rw [engine_wake]
  now_le := by rw [engine_wake]
  nodup := by rw [engine_wake]; exact id
  room := by rw [engine_wake]; exact id
  line member := (mem_line_wake.mp member).resolve_right (Ne.symm notPass)

theorem skips_defer (runner : Runner) (notPass : task ≠ .pass) : runner.Skips (runner.defer task) where
  activity_eq := rfl
  now_le := Nat.le_refl _
  nodup := id
  room := id
  line member := by
    rcases List.mem_append.mp member with isReady | hasStepped
    · exact List.mem_append_left _ isReady
    · exact List.mem_append_right _ ((List.mem_cons.mp hasStepped).resolve_left (Ne.symm notPass))

theorem skips_takeAnswer (runner : Runner) : runner.Skips runner.takeAnswer := by
  unfold takeAnswer
  split
  · exact skips_of_eq rfl rfl rfl rfl
  · split
    · exact skips_of_eq rfl rfl rfl rfl
    · split <;> exact skips_of_eq rfl rfl rfl rfl

theorem skips_handIn (outbox : List Engine.Submission) (runner : Runner) :
    runner.Skips (handIn outbox runner) := by
  induction outbox generalizing runner with
  | nil =>
      have emptied : runner.Skips { runner with outbox := [] } := skips_of_eq rfl rfl rfl rfl
      exact emptied.trans (skips_takeAnswer _)
  | cons submission outbox ih =>
      unfold handIn
      split
      · refine Skips.trans ?_ (ih _)
        exact skips_of_eq rfl rfl rfl rfl
      · dsimp only
        split
        · exact skips_of_eq rfl rfl rfl rfl
        · split
          · next engine sends =>
            obtain ⟨waitingEq, activityEq, nowEq⟩ := Engine.waiting_of_send? sends
            refine (Skips.trans ?_ (skips_wake _ (by decide))).trans (ih _)
            exact skips_of_eq activityEq nowEq waitingEq rfl
          · refine ⟨rfl, Nat.le_refl _, Mailbox.nodup_waiting_wait, ?_, id⟩
            exact fun waits => (Mailbox.mem_waiting_wait.mp waits).resolve_left (by decide)

theorem skips_goOn (runner : Runner) : runner.Skips runner.goOn := by
  unfold goOn
  split
  · exact skips_handIn runner.outbox runner
  · split
    · exact skips_of_eq rfl rfl rfl rfl
    · split
      · exact skips_of_eq rfl rfl rfl rfl
      · refine Skips.trans ?_ (skips_handIn _ _)
        exact skips_of_eq rfl rfl rfl rfl

theorem skips_drop (runner : Runner) : runner.Skips runner.drop := by
  have told : runner.Skips { runner with dropped := true } := skips_of_eq rfl rfl rfl rfl
  unfold drop
  dsimp only
  split <;> exact told.trans (skips_wake _ (by decide))

/-- When the worker makes room for a pass, the pass waits no longer and may stand in line. -/
theorem IsPatient.workOnce? (patient : runner.IsPatient) (works : runner.workOnce? = some next) :
    next.IsPatient := by
  unfold Runner.workOnce? at works
  split at works
  · cases works
  · next engine engineWorks =>
    cases works
    obtain ⟨waitingEq, activityEq, nowEq⟩ := Engine.waiting_of_work? engineWorks
    have worked : runner.Skips { runner with engine } :=
      ⟨activityEq, nowEq.ge, fun nodup => waitingEq ▸ nodup.tail,
        fun waits => List.mem_of_mem_tail (waitingEq ▸ waits), id⟩
    suffices woken : (wakeSender { runner with engine } runner.engine.waiting.head?).IsPatient from
      woken.of_skips (skips_of_eq rfl rfl rfl rfl)
    unfold wakeSender
    split
    · next isFirst =>
      obtain ⟨rest, waitingIs⟩ := List.head?_eq_some_iff.mp isFirst
      have nodup := patient.nodup
      rw [waitingIs, List.nodup_cons] at nodup
      rw [waitingIs, List.tail_cons] at waitingEq
      refine patient_wake (waitingEq ▸ nodup.2) (waitingEq ▸ nodup.1) ?_
      intro awaits
      have awaited := awaits.of_eq activityEq nowEq.ge
      rcases patient.room (waitingIs ▸ List.mem_cons_self) with isStopping | ⟨reports, -⟩
      · refine Engine.not_awaitsReply_of_not_passing ?_ awaited
        rw [Engine.isPassing, isStopping]
      · exact awaited.not_reports reports
    · exact (patient.of_skips worked).of_skips (skips_of_eq rfl rfl rfl rfl)
    · exact patient.of_skips worked

theorem IsPatient.turnOfWorker (patient : runner.IsPatient) (turn : Nat) :
    (turnOfWorker turn runner).IsPatient := by
  induction turn generalizing runner with
  | zero => exact patient.of_skips (skips_defer runner (by decide))
  | succ turn ih =>
      unfold Runner.turnOfWorker
      split
      · next worked works => exact ih (patient.workOnce? works)
      · split
        · exact patient.of_skips (skips_of_eq rfl rfl rfl rfl)
        · exact patient

theorem IsPatient.endRounds (patient : runner.IsPatient) : runner.endRounds.IsPatient := by
  have endedWaiting : runner.engine.endRounds.waiting = runner.engine.waiting := by
    rw [Engine.waiting, Engine.router_endRounds, Engine.waiting]
  unfold Runner.endRounds
  split
  · next isPassing =>
    have stops : runner.engine.endRounds.activity = .stopping := by
      simp only [Engine.endRounds, isPassing]
    refine ⟨?_, fun _ => ?_, fun _ => Or.inl ?_⟩
    · rw [engine_wake, endedWaiting]
      exact patient.nodup
    · rw [engine_wake]
      apply Engine.not_awaitsReply_of_not_passing
      rw [Engine.isPassing, stops]
    · rw [engine_wake]
      exact stops
  · next notPassing =>
    refine IsPatient.of_skips ?_ (skips_wake _ (by decide))
    refine ⟨endedWaiting ▸ patient.nodup, fun _ => ?_, fun waits => Or.inl ?_⟩
    · exact Engine.not_awaitsReply_of_not_passing (Engine.hasEnded_endRounds _).isPassing_eq
    · rw [endedWaiting] at waits
      rcases patient.room waits with isStopping | ⟨⟨due, pass, entries, isPassing, -⟩, -⟩
      · simp only [Engine.endRounds, isStopping]
      · exact absurd isPassing (notPassing due pass)

theorem IsPatient.turnOfRounds (patient : runner.IsPatient) : runner.turnOfRounds.IsPatient := by
  unfold Runner.turnOfRounds
  split
  · exact patient.endRounds
  · have toldWaiting : runner.engine.tellBroken.waiting = runner.engine.waiting := by
      rw [Engine.waiting, Engine.router_tellBroken, Engine.waiting]
    obtain ⟨journal, activity, toldEq, told⟩ := runner.engine.tellBroken_eq
    have toldPatient : { runner with engine := runner.engine.tellBroken }.IsPatient := by
      rcases told with rfl | ⟨due, isBroken, rfl⟩
      · refine patient.of_skips (skips_of_eq ?_ ?_ toldWaiting rfl)
        · rw [toldEq]
        · rw [toldEq]
      · have noneWaits := patient.noneWaits_of_awaits (Or.inr isBroken)
        refine patient_of_noneWaits (toldWaiting ▸ patient.nodup) (toldWaiting ▸ noneWaits) ?_
        apply Engine.not_awaitsReply_of_not_passing
        change runner.engine.tellBroken.isPassing = false
        rw [toldEq]
        rfl
    dsimp only
    split
    · next due isResting =>
      split
      · refine patient_wake toldPatient.nodup (toldPatient.noneWaits_of_awaits (Or.inl isResting)) ?_
        exact Engine.not_awaitsReply_of_stage rfl nofun
      · exact toldPatient
    · exact toldPatient

/-- A pass at its turn has nothing to wait for, and the turn ends when it has. -/
theorem IsPatient.turnOfPass (patient : runner.IsPatient) (limit turn : Nat)
    (absent : .pass ∉ runner.line) (notAwaiting : ¬ runner.engine.AwaitsReply)
    (noneWaits : .discovery ∈ runner.engine.waiting → runner.engine.activity = .stopping) :
    (turnOfPass limit turn runner).IsPatient := by
  induction limit generalizing turn runner with
  | zero => exact patient
  | succ limit ih =>
      unfold Runner.turnOfPass
      split
      · next due pass isPassing =>
        have noneWaits : .discovery ∉ runner.engine.waiting := by
          intro waits
          cases isPassing.symm.trans (noneWaits waits)
        split
        · exact patient_of_noneWaits patient.nodup noneWaits notAwaiting
        · have waitsAfter := Engine.waitsAfter_passStep isPassing
          have goesOn {engine : Engine} (sameWaiting : engine.waiting = runner.engine.waiting)
              (notAwaiting : ¬ engine.AwaitsReply) :
              { runner with engine }.IsPatient ∧ .discovery ∉ engine.waiting :=
            have noneNow : .discovery ∉ engine.waiting := sameWaiting ▸ noneWaits
            ⟨patient_of_noneWaits (sameWaiting ▸ patient.nodup) noneNow notAwaiting, noneNow⟩
          dsimp only
          split
          · next engine stepped =>
            rw [stepped] at waitsAfter
            cases waitsAfter with
            | goesOn sameWaiting notAwaiting =>
                obtain ⟨patientThen, noneThen⟩ := goesOn sameWaiting notAwaiting
                exact ih patientThen _ absent notAwaiting fun waits => absurd waits noneThen
          · next engine stepped =>
            rw [stepped] at waitsAfter
            cases waitsAfter with
            | goesOn sameWaiting notAwaiting =>
                obtain ⟨patientThen, noneThen⟩ := goesOn sameWaiting notAwaiting
                refine ih (patientThen.of_skips (skips_wake _ (by decide))) _ ?_ ?_ ?_
                · exact fun member => absent ((mem_line_wake.mp member).resolve_right (by decide))
                · rwa [engine_wake]
                · rw [engine_wake]
                  exact fun waits => absurd waits noneThen
          · next engine stepped =>
            rw [stepped] at waitsAfter
            cases waitsAfter with
            | goesOn sameWaiting notAwaiting => exact (goesOn sameWaiting notAwaiting).1
            | reply sameWaiting =>
                exact ⟨sameWaiting ▸ patient.nodup, fun member => absurd member absent,
                  fun waits => absurd (sameWaiting ▸ waits) noneWaits⟩
            | room reports =>
                exact ⟨Mailbox.nodup_waiting_wait patient.nodup, fun member => absurd member absent,
                  fun _ => Or.inr ⟨reports, absent⟩⟩
          · next engine stepped =>
            rw [stepped] at waitsAfter
            cases waitsAfter with
            | goesOn sameWaiting notAwaiting =>
                exact (goesOn sameWaiting notAwaiting).1.of_skips (skips_wake _ (by decide))
      · refine IsPatient.of_skips ?_ (skips_wake _ (by decide))
        apply patient_of_noneWaits
        · exact patient.nodup.filter _
        · intro waits
          simpa using (List.mem_filter.mp waits).2
        · exact Engine.not_awaitsReply_of_not_passing rfl
      · exact patient

theorem IsPatient.turnOf {ready : List Participant} (patient : runner.IsPatient)
    (inOrder : runner.InOrder) (hasNext : runner.ready = task :: ready) :
    ({ runner with ready }.turnOf task).IsPatient := by
  have stood : task ∈ runner.line := by
    rw [line, hasNext]
    exact List.mem_cons_self
  have absent := (inOrder.of_head hasNext).2
  have taken : { runner with ready }.IsPatient := by
    refine patient.of_skips ⟨rfl, Nat.le_refl _, id, id, fun member => ?_⟩
    rw [line, hasNext]
    exact List.mem_cons_of_mem _ member
  cases task with
  | worker => exact taken.turnOfWorker _
  | rounds => exact taken.turnOfRounds
  | pass =>
      refine taken.turnOfPass _ _ absent (patient.reply stood) fun waits => ?_
      exact (patient.room waits).resolve_right fun stands => stands.2 stood

/-- The clock wakes a pass only when its reply has come. -/
theorem IsPatient.wakeTimed (patient : runner.IsPatient) : runner.wakeTimed.IsPatient := by
  have postponed (woken : Runner) : woken.Skips
      (if woken.sleepsUntil.any (· ≤ woken.engine.now) then woken.postpone else woken) := by
    split <;> exact skips_of_eq rfl rfl rfl rfl
  unfold Runner.wakeTimed
  refine IsPatient.of_skips ?_ (postponed _)
  split
  · split
    · exact patient.of_skips (skips_wake _ (by decide))
    · exact patient
  · next due started remaining time reply isPassing =>
    split
    · next hasCome =>
      have noneWaits : .discovery ∉ runner.engine.waiting :=
        patient.noneWaits (by simp [isPassing]) (Engine.not_reports_of_stage isPassing rfl)
      refine patient_wake patient.nodup noneWaits ?_
      rintro ⟨other, pass, later, otherReply, passesToo, isAwaiting, notYet⟩
      cases isPassing.symm.trans passesToo
      cases isAwaiting
      exact absurd hasCome (Nat.not_le.mpr notYet)
    · exact patient
  · exact patient

theorem IsPatient.of_move (patient : runner.IsPatient) (inOrder : runner.InOrder)
    (moves : runner.Moves next) : next.IsPatient := by
  cases moves with
  | turn hasNext => exact patient.turnOf inOrder hasNext
  | resume =>
      refine patient.of_skips (skips_of_eq rfl rfl rfl ?_)
      rw [line, Runner.resume, List.append_nil, line]
  | jump isIdle jumps =>
      obtain ⟨time, -, rfl⟩ := Option.map_eq_some_iff.mp jumps
      exact IsPatient.wakeTimed (patient.of_skips ⟨rfl, le_max_left _ _, id, id, id⟩)
  | ask => exact patient.of_skips (skips_of_eq rfl rfl rfl rfl)
  | goOn => exact patient.of_skips (skips_goOn runner)
  | drop => exact patient.of_skips (skips_drop runner)

theorem Evolves.isPatient (evolves : runner.Evolves next) (patient : runner.IsPatient)
    (inOrder : runner.InOrder) : next.IsPatient := by
  cases evolves with
  | moves moves => exact patient.of_move inOrder moves
  | change => exact patient.of_skips (skips_of_eq rfl rfl rfl rfl)

theorem patient_begin (script : Nat → Responder) {router : AutoRouter Float} {hosts : List Host}
    {bucketCount : Nat} {method : HashMethod} {options : AutoOptions} {journal : Journal}
    (built : AutoRouter.build hosts bucketCount method options true = .ok router) :
    (begin router script options journal).IsPatient := by
  obtain ⟨-, -, rfl⟩ := AutoRouter.build_eq_ok built
  apply patient_of_noneWaits
  · exact List.nodup_nil
  · exact List.not_mem_nil
  · apply Engine.not_awaitsReply_of_not_passing
    unfold Engine.isPassing begin start Engine.start
    dsimp only
    split
    · next isPassing =>
      split at isPassing <;> cases isPassing
    · rfl

/-- Whatever becomes of a runner, a pass that waits is out of line. -/
theorem patient_of_evolves {script : Nat → Responder} {router : AutoRouter Float} {hosts : List Host}
    {bucketCount : Nat} {method : HashMethod} {options : AutoOptions} {journal : Journal}
    (built : AutoRouter.build hosts bucketCount method options true = .ok router)
    (evolves : Relation.ReflTransGen Evolves (begin router script options journal) runner) :
    runner.IsPatient := by
  induction evolves with
  | refl => exact patient_begin script built
  | tail earlier evolves ih => exact evolves.isPatient ih (attends_of_evolves earlier).toInOrder

theorem IsPatient.pass_not_mem_line (patient : runner.IsPatient)
    (waits : runner.engine.AwaitsReply ∨ runner.engine.AwaitsRoom) : .pass ∉ runner.line := by
  rcases waits with awaitsReply | ⟨isPassing, waits⟩
  · exact fun member => patient.reply member awaitsReply
  · rcases patient.room waits with isStopping | ⟨-, absent⟩
    · rw [Engine.isPassing, isStopping] at isPassing
      cases isPassing
    · exact absent

end Runner

end CacheRouting
