import CacheRouting.Auto.Runner
import CacheRouting.Proofs.Auto.Router

/-!
# What the runner does, step by step

The runner lets the worker do all that a message asks for at once, which comes to a
run of its single steps.  Whatever turns it gives, its engine gets on by steps of a
few kinds, and nobody drops the scheduler but the caller.  So what every step keeps
holds of the runner too.
-/

namespace CacheRouting

namespace Dispatch

variable {W : Type} [Weight W]

/-- With a message in hand, doing all that it asks for comes to one or two steps. -/
theorem exists_run?_perform (dispatch : Dispatch W) (message : Message W) :
    (dispatch.perform message).hand = .empty ∧
      ∃ steps, { dispatch with hand := .holding message }.run? (List.replicate steps .work) =
        some (dispatch.perform message) := by
  cases message with
  | sync number => exact ⟨rfl, 1, rfl⟩
  | feedback item =>
      have counts : { dispatch with hand := .holding (.feedback item) }.act? .work =
          some (dispatch.count item) := rfl
      by_cases applied : (dispatch.table.apply item).1 = true
      · have handEq : (dispatch.count item).hand = .counted item := by
          simp [count, applied]
        have publishes : (dispatch.count item).act? .work =
            some ((dispatch.count item).publish item.bucket) := by
          rw [act?, step?, handEq]
        rw [perform, publishCounted, handEq]
        refine ⟨hand_publish .., 2, ?_⟩
        simp only [List.replicate, run?, counts, publishes, Option.bind_some]
      · have handEq : (dispatch.count item).hand = .empty := by
          simp [count, applied]
        rw [perform, publishCounted, handEq]
        refine ⟨handEq, 1, ?_⟩
        simp only [List.replicate, run?, counts, Option.bind_some]

/-- From an empty hand, taking a message and doing all that it asks for is a run of the
worker. -/
theorem run?_of_work? {dispatch next : Dispatch W} (isEmpty : dispatch.hand = .empty)
    (works : dispatch.work? = some next) :
    next.hand = .empty ∧
      ∃ steps, dispatch.run? (List.replicate steps .work) = some next := by
  unfold work? at works
  split at works
  · cases works
  · next message mailbox takes =>
    cases works
    obtain ⟨nextEmpty, steps, ran⟩ := exists_run?_perform { dispatch with mailbox } message
    have takesUp : dispatch.act? .work =
        some { dispatch with mailbox, hand := .holding message } := by
      rw [act?, step?, isEmpty, takeUp?, takes]
      rfl
    refine ⟨nextEmpty, steps + 1, ?_⟩
    rw [List.replicate_succ, run?, takesUp]
    exact ran

end Dispatch

namespace Engine

/-- Noting the orders changes nothing but the journal. -/
theorem noteOrders_eq (engine : Engine) :
    ∃ journal, engine.noteOrders = { engine with journal } := by
  have noted : ∀ (buckets : List Nat) (current : Engine),
      (∃ journal, current = { engine with journal }) →
      ∃ journal, buckets.foldl (fun noted bucket => noted.note (engine.orderEvent bucket)) current =
        { engine with journal } := by
    intro buckets
    induction buckets with
    | nil => exact fun current isNoted => isNoted
    | cons bucket rest ih =>
        rintro current ⟨journal, rfl⟩
        exact ih _ ⟨_, rfl⟩
  unfold noteOrders
  split
  · exact noted _ engine ⟨_, rfl⟩
  · exact ⟨_, rfl⟩

@[simp]
theorem router_receive (engine : Engine) (due : Nat) (pass : Pass) (host : Nat) (probe : String)
    (rest : List (Nat × String)) (reply : Reply) :
    (engine.receive due pass host probe rest reply).router = engine.router := by
  unfold receive
  dsimp only
  split <;> rfl

@[simp]
theorem router_tellBroken (engine : Engine) : engine.tellBroken.router = engine.router := by
  unfold tellBroken
  split <;> rfl

@[simp]
theorem router_endRounds (engine : Engine) : engine.endRounds.router = engine.router := by
  unfold endRounds
  split <;> rfl

/-- What the runner lets an engine do next.  Rounds and worker come to their end only when
the scheduler has been dropped. -/
inductive Step (dropped : Bool) (engine : Engine) : Engine → Prop
  | work {next : Engine} (works : engine.work? = some next) : Step dropped engine next
  | pass {due : Nat} {pass : Pass} (isPassing : engine.activity = .passing due pass) :
      Step dropped engine (engine.passStep due pass).2
  | start {due : Nat} (isResting : engine.activity = .resting due) (isDue : due ≤ engine.now) :
      Step dropped engine (engine.startPass due)
  | refuse {submission : Submission} {event : Event}
      (isEvent : engine.messageOf submission = .error event) : Step dropped engine (engine.note event)
  | send {submission : Submission} {message : Message Float} {next : Engine}
      (isMessage : engine.messageOf submission = .ok message)
      (sends : engine.send? message = some next) : Step dropped engine next
  | wait {submission : Submission} {message : Message Float}
      (isMessage : engine.messageOf submission = .ok message)
      (isFull : engine.send? message = none) : Step dropped engine (engine.waitForRoom caller)
  | jump (time : Nat) : Step dropped engine { engine with now := max engine.now time }
  | tell : Step dropped engine engine.tellBroken
  | stop (isStopping : engine.activity = .stopping) : Step dropped engine engine.stopPass
  | endRounds (isDropped : dropped = true) : Step dropped engine engine.endRounds
  | endWorker (isDropped : dropped = true) (event : Event) : Step dropped engine (engine.note event)

end Engine

namespace Runner

/-- The engine of one runner gets to that of another step by step, and nobody drops the
scheduler meanwhile. -/
structure Goes (runner next : Runner) : Prop where
  dropped_eq : next.dropped = runner.dropped
  steps : Relation.ReflTransGen (Engine.Step runner.dropped) runner.engine next.engine

section Goes

variable {runner middle next : Runner}

theorem goes_of_engine_eq (dropped : next.dropped = runner.dropped)
    (engine : next.engine = runner.engine) : runner.Goes next :=
  ⟨dropped, engine ▸ .refl⟩

theorem goes_of_step (dropped : next.dropped = runner.dropped)
    (step : Engine.Step runner.dropped runner.engine next.engine) : runner.Goes next :=
  ⟨dropped, .single step⟩

theorem Goes.trans (first : runner.Goes middle) (second : middle.Goes next) : runner.Goes next where
  dropped_eq := second.dropped_eq.trans first.dropped_eq
  steps := first.steps.trans (first.dropped_eq ▸ second.steps)

end Goes

@[simp]
theorem engine_wake (runner : Runner) (task : Participant) :
    (runner.wake task).engine = runner.engine := by
  unfold wake
  split <;> rfl

@[simp]
theorem dropped_wake (runner : Runner) (task : Participant) :
    (runner.wake task).dropped = runner.dropped := by
  unfold wake
  split <;> rfl

theorem goes_wake (runner : Runner) (task : Participant) : runner.Goes (runner.wake task) :=
  goes_of_engine_eq (dropped_wake ..) (engine_wake ..)

theorem goes_wakeSender (runner : Runner) (sender : Option Sender) :
    runner.Goes (runner.wakeSender sender) := by
  unfold wakeSender
  split
  · exact goes_wake runner .pass
  · exact goes_of_engine_eq rfl rfl
  · exact goes_of_engine_eq rfl rfl

theorem goes_of_workOnce? {runner next : Runner} (works : runner.workOnce? = some next) :
    runner.Goes next := by
  unfold workOnce? at works
  split at works
  · cases works
  · next engine engineWorks =>
    cases works
    have worked : runner.Goes { runner with engine } := goes_of_step rfl (.work engineWorks)
    exact (worked.trans (goes_wakeSender _ _)).trans (goes_of_engine_eq rfl rfl)

theorem goes_turnOfWorker (turn : Nat) (runner : Runner) :
    runner.Goes (turnOfWorker turn runner) := by
  induction turn generalizing runner with
  | zero => exact goes_of_engine_eq rfl rfl
  | succ turn ih =>
      unfold turnOfWorker
      split
      · next worked works => exact (goes_of_workOnce? works).trans (ih worked)
      · split
        · next ends =>
          have isDropped : runner.dropped = true := by
            simp only [isClosed, Bool.and_eq_true] at ends
            exact ends.1.1
          exact goes_of_step rfl (.endWorker isDropped _)
        · exact goes_of_engine_eq rfl rfl

theorem goes_endRounds {runner : Runner} (isDropped : runner.dropped = true) :
    runner.Goes runner.endRounds := by
  unfold endRounds
  split
  · exact goes_of_step (by simp) (by simpa using .endRounds isDropped)
  · exact goes_of_step (by simp) (by simpa using .endRounds isDropped)

theorem goes_turnOfRounds (runner : Runner) : runner.Goes runner.turnOfRounds := by
  unfold turnOfRounds
  split
  · next isDropped => exact goes_endRounds isDropped
  · have told : runner.Goes { runner with engine := runner.engine.tellBroken } :=
      goes_of_step rfl .tell
    dsimp only
    split
    · next due isResting =>
      split
      · next isDue =>
        refine (told.trans ?_).trans (goes_wake _ _)
        exact goes_of_step rfl (.start isResting isDue)
      · exact told
    · exact told

theorem goes_turnOfPass (limit turn : Nat) (runner : Runner) :
    runner.Goes (turnOfPass limit turn runner) := by
  induction limit generalizing turn runner with
  | zero => exact goes_of_engine_eq rfl rfl
  | succ limit ih =>
      unfold turnOfPass
      split
      · next due pass isPassing =>
        split
        · exact goes_of_engine_eq rfl rfl
        · have goes {progress : PassProgress} {engine : Engine}
              (stepped : runner.engine.passStep due pass = (progress, engine)) :
              runner.Goes { runner with engine } := by
            have step : Engine.Step runner.dropped runner.engine (runner.engine.passStep due pass).2 :=
              .pass isPassing
            rw [stepped] at step
            exact goes_of_step rfl step
          dsimp only
          split
          · next engine stepped => exact (goes stepped).trans (ih _ _)
          · next engine stepped => exact ((goes stepped).trans (goes_wake _ _)).trans (ih _ _)
          · next engine stepped => exact goes stepped
          · next engine stepped => exact (goes stepped).trans (goes_wake _ _)
      · next isStopping =>
        refine Goes.trans ?_ (goes_wake _ _)
        exact goes_of_step rfl (.stop isStopping)
      · exact goes_of_engine_eq rfl rfl

theorem goes_turnOf (runner : Runner) (task : Participant) : runner.Goes (runner.turnOf task) := by
  cases task with
  | worker => exact goes_turnOfWorker turnLength runner
  | rounds => exact goes_turnOfRounds runner
  | pass => exact goes_turnOfPass runner.passLimit turnLength runner

theorem goes_takeAnswer (runner : Runner) : runner.Goes runner.takeAnswer := by
  unfold takeAnswer
  split
  · exact goes_of_engine_eq rfl rfl
  · split
    · exact goes_of_engine_eq rfl rfl
    · split <;> exact goes_of_engine_eq rfl rfl

theorem goes_handIn (outbox : List Engine.Submission) (runner : Runner) :
    runner.Goes (handIn outbox runner) := by
  induction outbox generalizing runner with
  | nil =>
      have emptied : runner.Goes { runner with outbox := [] } := goes_of_engine_eq rfl rfl
      exact emptied.trans (goes_takeAnswer _)
  | cons submission outbox ih =>
      unfold handIn
      split
      · next event isEvent =>
        refine Goes.trans ?_ (ih _)
        exact goes_of_step rfl (.refuse isEvent)
      · next message isMessage =>
        dsimp only
        split
        · exact goes_of_engine_eq rfl rfl
        · split
          · next engine sends =>
            have sent : runner.Goes { runner with engine } := goes_of_step rfl (.send isMessage sends)
            have used : Goes { runner with engine } { runner with engine }.useTurn :=
              goes_of_engine_eq rfl rfl
            exact ((sent.trans used).trans (goes_wake _ _)).trans (ih _)
          · next isFull => exact goes_of_step rfl (.wait isMessage isFull)

theorem goes_goOn (runner : Runner) : runner.Goes runner.goOn := by
  unfold goOn
  split
  · exact goes_handIn runner.outbox runner
  · split
    · exact goes_of_engine_eq rfl rfl
    · split
      · exact goes_of_engine_eq rfl rfl
      · refine Goes.trans ?_ (goes_handIn _ _)
        exact goes_of_engine_eq rfl rfl

theorem goes_ite_wake (runner : Runner) (due : Nat) (task : Participant) :
    runner.Goes (if due ≤ runner.engine.now then runner.wake task else runner) := by
  split
  · exact goes_wake runner task
  · exact goes_of_engine_eq rfl rfl

theorem goes_wakeTimed (runner : Runner) : runner.Goes runner.wakeTimed := by
  have postponed (woken : Runner) : woken.Goes
      (if woken.sleepsUntil.any (· ≤ woken.engine.now) then woken.postpone else woken) := by
    split <;> exact goes_of_engine_eq rfl rfl
  unfold wakeTimed
  refine Goes.trans ?_ (postponed _)
  split
  · exact goes_ite_wake ..
  · exact goes_ite_wake ..
  · exact goes_of_engine_eq rfl rfl

theorem goes_of_jump? {runner next : Runner} (jumps : runner.jump? = some next) :
    runner.Goes next := by
  obtain ⟨time, -, rfl⟩ := Option.map_eq_some_iff.mp jumps
  refine Goes.trans ?_ (goes_wakeTimed _)
  exact goes_of_step rfl (.jump time)

@[simp]
theorem engine_drop (runner : Runner) : runner.drop.engine = runner.engine := by
  unfold drop
  dsimp only
  split <;> simp

/-- What can happen to a runner next.  The caller may ask for anything at any time. -/
inductive Moves (runner : Runner) : Runner → Prop
  | turn {task : Participant} {ready : List Participant} (hasNext : runner.ready = task :: ready) :
      Moves runner ({ runner with ready }.turnOf task)
  | resume : Moves runner runner.resume
  | jump {later : Runner} (isIdle : runner.isIdle = true) (jumps : runner.jump? = some later) :
      Moves runner later
  | ask (sleepsUntil : Option Nat) (outbox : List Engine.Submission) (question : Nat)
      (awaitsAnswer : Bool) (callerTurn : Nat) (callerWoken : Bool) :
      Moves runner { runner with
        sleepsUntil, outbox, question, awaitsAnswer, callerTurn, callerWoken }
  | goOn : Moves runner runner.goOn
  | drop : Moves runner runner.drop

theorem Moves.goes_or_drop {runner next : Runner} (moves : runner.Moves next) :
    runner.Goes next ∨ next = runner.drop := by
  cases moves with
  | @turn task ready hasNext =>
      have taken : runner.Goes { runner with ready } := goes_of_engine_eq rfl rfl
      exact Or.inl (taken.trans (goes_turnOf _ task))
  | resume => exact Or.inl (goes_of_engine_eq rfl rfl)
  | jump isIdle jumps => exact Or.inl (goes_of_jump? jumps)
  | ask => exact Or.inl (goes_of_engine_eq rfl rfl)
  | goOn => exact Or.inl (goes_goOn runner)
  | drop => exact Or.inr rfl

theorem moves_round (turns : Nat) (runner : Runner) :
    Relation.ReflTransGen Moves runner (round turns runner) := by
  induction turns generalizing runner with
  | zero => exact .refl
  | succ turns ih =>
      unfold round
      split
      · exact .refl
      · next task ready hasNext => exact .head (.turn hasNext) (ih _)

theorem moves_serveCaller (runner : Runner) :
    Relation.ReflTransGen Moves runner runner.serveCaller := by
  unfold serveCaller
  split
  · exact .head (.ask _ _ _ _ turnLength false) (.single .goOn)
  · exact .refl

theorem moves_settle (rounds : Nat) (runner : Runner) :
    Relation.ReflTransGen Moves runner (settle rounds runner) := by
  induction rounds generalizing runner with
  | zero => exact .refl
  | succ rounds ih =>
      have gone := moves_round turnsPerRound runner
      unfold settle
      split
      · exact .refl
      · dsimp only
        split
        · next isIdle =>
          split
          · next later jumps =>
            exact ((gone.tail (.jump isIdle jumps)).trans (moves_serveCaller later)).trans (ih _)
          · exact gone
        · exact ((gone.tail .resume).trans (moves_serveCaller _)).trans (ih _)

/-- Asking, going on and settling is what the runner does about everything it is told. -/
theorem moves_settle_goOn (rounds : Nat) {runner asked : Runner} (asks : runner.Moves asked) :
    Relation.ReflTransGen Moves runner (settle rounds asked.goOn) :=
  (Relation.ReflTransGen.head asks (.single .goOn)).trans (moves_settle rounds asked.goOn)

theorem moves_perform (runner : Runner) (sleep : Option Nat) (reports : List Engine.Submission) :
    Relation.ReflTransGen Moves runner (runner.perform sleep reports) := by
  unfold perform
  exact moves_settle_goOn _ (.ask ..)

theorem moves_advance (runner : Runner) (span : Nat) :
    Relation.ReflTransGen Moves runner (runner.advance span) := by
  unfold advance
  split
  · exact moves_settle_goOn _ (.ask ..)
  · exact moves_perform runner (some span) []

end Runner

end CacheRouting
