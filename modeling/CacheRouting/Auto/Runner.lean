import CacheRouting.Auto.Engine

/-!
# Running a scheduler

The worker, the rounds of discovery and the pass that goes on take turns on a
single thread.  A task that is woken stands in line, and who has stood there longest
has the next turn: it goes on until it has to wait, or until it has used the mailbox
so often that others get a turn first.  The caller has turns of the same length and
gets one between the rounds of turns.  When nobody can go on, the clock jumps to the
next time at which somebody can.  On several threads, or in another order of turns,
a task that has been told to end may get further than it does here.

Dropping the scheduler tells the rounds to end, which they do when their turn
comes; they tell the pass to stop, which it does when its own turn comes.  When
the scheduler, the rounds and the pass are gone nobody can send, and the worker
ends as soon as its mailbox is empty.
-/

namespace CacheRouting

inductive Participant
  | worker
  | rounds
  | pass
  deriving DecidableEq, Repr

/-- An engine with the tasks that drive it and the caller that uses it. -/
structure Runner where
  engine : Engine
  /-- The tasks in line, the next one first. -/
  ready : List Participant
  /-- The tasks that stepped back for others, the latest first. -/
  deferred : List Participant
  /-- The time until which the caller sleeps, if it does. -/
  sleepsUntil : Option Nat
  /-- What the caller has still to hand in. -/
  outbox : List Engine.Submission
  /-- The number of the caller's latest sync. -/
  question : Nat
  /-- Whether the caller waits for the answer to its latest sync. -/
  awaitsAnswer : Bool
  /-- How often the caller may still use the mailbox or the clock in its turn. -/
  callerTurn : Nat
  /-- Whether the caller can go on. -/
  callerWoken : Bool
  /-- Whether the scheduler has been dropped. -/
  dropped : Bool
  /-- Whether the worker has come to its end. -/
  workerOver : Bool

namespace Runner

/-- How often a task or the caller may use the mailbox or the clock in one turn. -/
def turnLength : Nat := 128

/-- After so many turns the caller is looked after even if tasks stand in line. -/
def turnsPerRound : Nat := 61

def start (engine : Engine) (options : AutoOptions) : Runner where
  engine
  ready := if options.discovery then [.worker, .rounds] else [.worker]
  deferred := []
  sleepsUntil := none
  outbox := []
  question := 0
  awaitsAnswer := false
  callerTurn := turnLength
  callerWoken := false
  dropped := false
  workerOver := false

def wake (runner : Runner) (task : Participant) : Runner :=
  if task ∈ runner.ready ∨ task ∈ runner.deferred then runner
  else { runner with ready := runner.ready ++ [task] }

def defer (runner : Runner) (task : Participant) : Runner :=
  { runner with deferred := task :: runner.deferred }

def resume (runner : Runner) : Runner :=
  { runner with ready := runner.ready ++ runner.deferred, deferred := [] }

def wakeSender (runner : Runner) : Option Sender → Runner
  | some .discovery => runner.wake .pass
  | some (.caller _) => { runner with callerWoken := true }
  | none => runner

def hasAnswer (runner : Runner) : Bool :=
  runner.awaitsAnswer && runner.engine.router.dispatch.answered.contains runner.question

/-- Whether nobody is left who could send to the worker. -/
def isClosed (runner : Runner) : Bool :=
  runner.dropped &&
    match runner.engine.activity with
    | .off => true
    | _ => false

def workOnce? (runner : Runner) : Option Runner :=
  match runner.engine.work? with
  | none => none
  | some engine =>
      let sender := runner.engine.router.dispatch.mailbox.waiting.head?
      let worked := { runner with engine }.wakeSender sender
      some { worked with callerWoken := worked.callerWoken || worked.hasAnswer }

def endWorker (runner : Runner) : Runner :=
  { runner with
    workerOver := true
    engine := runner.engine.note {
      level := .debug
      target := "memroute_scheduler::auto"
      message := "feedback worker stopped"
      fields := [] } }

def turnOfWorker : (turn : Nat) → Runner → Runner
  | 0, runner => runner.defer .worker
  | turn + 1, runner =>
      match runner.workOnce? with
      | some runner => turnOfWorker turn runner
      | none => if runner.isClosed && !runner.workerOver then runner.endWorker else runner

/-- End the rounds.  A pass that goes on is put in line, even if it has stepped back, so
that it can stop; without one the worker is told that nobody can send any more. -/
def endRounds (runner : Runner) : Runner :=
  match runner.engine.activity with
  | .passing _ _ =>
      { runner with
        engine := runner.engine.endRounds
        deferred := runner.deferred.filter (· != Participant.pass) }.wake .pass
  | _ => { runner with engine := runner.engine.endRounds }.wake .worker

/-- Give the rounds a turn: tell of a pass that has been broken off, and start the one
that is due. -/
def turnOfRounds (runner : Runner) : Runner :=
  if runner.dropped then runner.endRounds
  else
    let told := { runner with engine := runner.engine.tellBroken }
    match told.engine.activity with
    | .resting due =>
        if due ≤ told.engine.now then
          { told with engine := told.engine.startPass due }.wake .pass
        else told
    | _ => told

def usesTurn (pass : Pass) : Bool :=
  match pass.stage with
  | .awaiting _ _ => true
  | .reporting (_ :: _) => true
  | _ => false

/-- Give the pass a turn of at most `limit` steps. -/
def turnOfPass : (limit turn : Nat) → Runner → Runner
  | 0, _, runner => runner
  | limit + 1, turn, runner =>
      match runner.engine.activity with
      | .passing due pass =>
          if turn = 0 && usesTurn pass then runner.defer .pass
          else
            let turnLeft := if usesTurn pass then turn - 1 else turn
            match runner.engine.passStep due pass with
            | (.moved, engine) => turnOfPass limit turnLeft { runner with engine }
            | (.sent, engine) => turnOfPass limit turnLeft ({ runner with engine }.wake .worker)
            | (.waits, engine) => { runner with engine }
            | (.over, engine) => { runner with engine }.wake .rounds
      | .stopping => { runner with engine := runner.engine.stopPass }.wake .worker
      | _ => runner

/-- More steps than one turn of the pass can have. -/
def passLimit (runner : Runner) : Nat :=
  match runner.engine.activity with
  | .passing _ pass => 20 * (pass.remaining.length + 2)
  | _ => 1

def turnOf (runner : Runner) : Participant → Runner
  | .worker => turnOfWorker turnLength runner
  | .rounds => runner.turnOfRounds
  | .pass => turnOfPass runner.passLimit turnLength runner

def round : (turns : Nat) → Runner → Runner
  | 0, runner => runner
  | turns + 1, runner =>
      match runner.ready with
      | [] => runner
      | task :: ready => round turns ({ runner with ready }.turnOf task)

def useTurn (runner : Runner) : Runner :=
  { runner with callerTurn := runner.callerTurn - 1 }

def postpone (runner : Runner) : Runner :=
  { runner with callerWoken := true }

def takeAnswer (runner : Runner) : Runner :=
  if !runner.awaitsAnswer then runner
  else if runner.callerTurn = 0 then runner.postpone
  else if runner.hasAnswer then { runner with awaitsAnswer := false }.useTurn
  else runner

/-- Hand in what the caller has, as far as there is room and the turn lasts.  What sends
nothing needs neither. -/
def handIn : List Engine.Submission → Runner → Runner
  | [], runner => { runner with outbox := [] }.takeAnswer
  | submission :: outbox, runner =>
      match runner.engine.messageOf submission with
      | .error event => handIn outbox { runner with engine := runner.engine.note event }
      | .ok message =>
          let waiting := { runner with outbox := submission :: outbox }
          if runner.callerTurn = 0 then waiting.postpone
          else
            match runner.engine.send? message with
            | some engine => handIn outbox ({ runner with engine }.useTurn.wake .worker)
            | none => { waiting with engine := runner.engine.waitForRoom Engine.caller }

def goOn (runner : Runner) : Runner :=
  match runner.sleepsUntil with
  | none => handIn runner.outbox runner
  | some time =>
      if runner.callerTurn = 0 then runner.postpone
      else if runner.engine.now < time then runner
      else handIn runner.outbox { runner with sleepsUntil := none }.useTurn

def turnOfCaller (runner : Runner) : Runner :=
  { runner with callerWoken := false, callerTurn := turnLength }.goOn

def isDone (runner : Runner) : Bool :=
  runner.sleepsUntil.isNone && runner.outbox.isEmpty && !runner.awaitsAnswer

/-- The times at which somebody can go on. -/
def timers (runner : Runner) : List Nat :=
  let ofActivity :=
    match runner.engine.activity with
    | .resting due => [due]
    | .passing _ { stage := .awaiting time _, .. } => [time]
    | _ => []
  ofActivity ++ runner.sleepsUntil.toList

def wakeTimed (runner : Runner) : Runner :=
  let woken :=
    match runner.engine.activity with
    | .resting due => if due ≤ runner.engine.now then runner.wake .rounds else runner
    | .passing _ { stage := .awaiting time _, .. } =>
        if time ≤ runner.engine.now then runner.wake .pass else runner
    | _ => runner
  if woken.sleepsUntil.any (· ≤ woken.engine.now) then woken.postpone else woken

def jump? (runner : Runner) : Option Runner :=
  runner.timers.min?.map fun time =>
    { runner with engine := { runner.engine with now := max runner.engine.now time } }.wakeTimed

/-- Whether nobody can go on before some time has passed. -/
def isIdle (runner : Runner) : Bool :=
  runner.ready.isEmpty && runner.deferred.isEmpty && !runner.callerWoken

def serveCaller (runner : Runner) : Runner :=
  if runner.callerWoken then runner.turnOfCaller else runner

/-- Go on until the caller has nothing left to wait for, in at most so many rounds. -/
def settle : (rounds : Nat) → Runner → Runner
  | 0, runner => runner
  | rounds + 1, runner =>
      if runner.isDone then runner
      else
        let gone := round turnsPerRound runner
        if gone.isIdle then
          match gone.jump? with
          | some later => settle rounds later.serveCaller
          | none => gone
        else settle rounds gone.resume.serveCaller

/-- More rounds than the caller can have to wait for `span` milliseconds. -/
def roundLimit (runner : Runner) (span : Nat) : Nat :=
  let passes := span / max runner.engine.interval 1 + 2
  let probes := runner.engine.probes.length * runner.engine.responders.size
  passes * (64 * probes + 64) + 64 * (runner.outbox.length + 1) +
    64 * runner.engine.router.dispatch.mailbox.queue.length

/-- Let the caller sleep for a span, if there is one, then hand in reports, and then wait
until all that has been sent is applied.  The caller goes on with the turn it has. -/
def perform (runner : Runner) (sleep : Option Nat) (reports : List Engine.Submission) : Runner :=
  let question := runner.question + 1
  let asked := { runner with
    sleepsUntil := sleep.map (runner.engine.now + ·)
    outbox := reports ++ [Engine.Submission.sync question]
    question
    awaitsAnswer := true }
  settle (asked.roundLimit (sleep.getD 0)) asked.goOn

def rest (runner : Runner) (span : Nat) : Runner :=
  let asleep := { runner with sleepsUntil := some (runner.engine.now + span) }
  settle (asleep.roundLimit span) asleep.goOn

def submit (runner : Runner) (reports : List Engine.Submission) : Runner :=
  runner.perform none reports

/-- Let the clock pass, then wait until all reports are applied.  When the scheduler has
been dropped there is nothing to wait for. -/
def advance (runner : Runner) (span : Nat) : Runner :=
  if runner.dropped then runner.rest span else runner.perform (some span) []

/-- Drop the scheduler: tell the rounds to end, or the worker if there are none. -/
def drop (runner : Runner) : Runner :=
  let told := { runner with dropped := true }
  if told.isClosed then told.wake .worker else told.wake .rounds

/-- When the last pass came to its end, as far as there is a scheduler to ask. -/
def lastCheck (runner : Runner) : Option Nat :=
  if runner.dropped then none else runner.engine.lastCheck

end Runner

end CacheRouting
