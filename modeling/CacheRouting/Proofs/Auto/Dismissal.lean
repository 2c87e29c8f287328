import CacheRouting.Proofs.Auto.Waiting

/-!
# Dropping a scheduler

When a scheduler is dropped its rounds are put in line to end, and when they do, the
pass that goes on is to stop.  No host is asked any more, unless a pass stands in line
before the rounds: it still has the one turn it stands in line for.  A pass that waits
for a reply or for room is out of line, so it asks nobody any more.  All of this rests on
the line: turns are taken one at a time, and who stands in front has the next one.
-/

namespace CacheRouting

theorem Engine.hasEnded_or_passing_or_awaits (engine : Engine) :
    engine.HasEnded ∨ engine.isPassing = true ∨ ∃ due, engine.Awaits due := by
  cases activity : engine.activity with
  | off => exact Or.inl (Or.inl activity)
  | resting due => exact Or.inr (Or.inr ⟨due, Or.inl activity⟩)
  | passing due pass => exact Or.inr (Or.inl (by rw [isPassing, activity]))
  | broken due => exact Or.inr (Or.inr ⟨due, Or.inr activity⟩)
  | stopping => exact Or.inl (Or.inr activity)

theorem Engine.callsOf_eq {engine next : Engine} (same : next.responders = engine.responders)
    (host : Nat) : next.callsOf host = engine.callsOf host := by
  rw [callsOf, same, callsOf]

namespace Runner

variable {runner next : Runner} {task other : Participant}

theorem mem_ready_wake (member : other ∈ (runner.wake task).ready) :
    other ∈ runner.ready ∨ other = task := by
  unfold wake at member
  split at member
  · exact Or.inl member
  · exact (List.mem_append.mp member).imp_right List.mem_singleton.mp

theorem ready_prefix_setEngine_wake (runner : Runner) (engine : Engine) (task : Participant) :
    runner.ready <+: ({ runner with engine }.wake task).ready :=
  ready_wake_prefix { runner with engine } task

/-- Whoever a pass wakes in its turn stands behind those in line. -/
theorem ready_prefix_turnOfPass (limit turn : Nat) (runner : Runner) :
    runner.ready <+: (turnOfPass limit turn runner).ready := by
  induction limit generalizing turn runner with
  | zero => exact List.prefix_rfl
  | succ limit ih =>
      unfold turnOfPass
      split
      · split
        · exact List.prefix_rfl
        · dsimp only
          split
          · next engine _ => exact ih _ { runner with engine }
          · exact (ready_prefix_setEngine_wake ..).trans (ih _ _)
          · exact List.prefix_rfl
          · exact ready_prefix_setEngine_wake ..
      · exact ready_prefix_setEngine_wake ..
      · exact List.prefix_rfl

/-- The scheduler has been dropped, and no pass takes a turn before the rounds end. -/
structure Leaves (runner : Runner) : Prop extends runner.Attends where
  isDropped : runner.dropped = true
  endsFirst : ∃ before after, runner.ready = before ++ .rounds :: after ∧
    (runner.engine.isPassing = true → .pass ∉ before)

/-- The scheduler has been dropped, and a pass takes a turn before the rounds end. -/
structure Lingers (runner : Runner) : Prop extends runner.Attends where
  isDropped : runner.dropped = true
  passFirst : ∃ before between after,
    runner.ready = before ++ .pass :: (between ++ .rounds :: after)

def Closes (runner : Runner) : Prop :=
  runner.engine.HasEnded ∨ runner.Leaves

theorem Spares.isPassing_eq (spares : runner.Spares next) :
    next.engine.isPassing = runner.engine.isPassing := by
  rw [Engine.isPassing, spares.activity_eq, Engine.isPassing]

theorem Leaves.of_spares (leaves : runner.Leaves) (spares : runner.Spares next)
    (isDropped : next.dropped = true) : next.Leaves := by
  obtain ⟨before, after, readyEq, noPass⟩ := leaves.endsFirst
  obtain ⟨more, readyThen⟩ := spares.ready_prefix
  refine ⟨leaves.toAttends.of_spares spares, isDropped, before, after ++ more, ?_, ?_⟩
  · rw [← readyThen, readyEq, List.append_assoc, List.cons_append]
  · rw [spares.isPassing_eq]
    exact noPass

theorem Lingers.of_spares (lingers : runner.Lingers) (spares : runner.Spares next)
    (isDropped : next.dropped = true) : next.Lingers := by
  obtain ⟨before, between, after, readyEq⟩ := lingers.passFirst
  obtain ⟨more, readyThen⟩ := spares.ready_prefix
  refine ⟨lingers.toAttends.of_spares spares, isDropped, before, between, after ++ more, ?_⟩
  rw [← readyThen, readyEq]
  simp

/-- Apart from turns, what happens while somebody stands in line leaves discovery alone. -/
theorem Moves.spares_or_turn (moves : runner.Moves next) (someReady : runner.ready ≠ []) :
    runner.Spares next ∨ ∃ task ready, runner.ready = task :: ready ∧
      next = { runner with ready }.turnOf task := by
  cases moves with
  | turn hasNext => exact Or.inr ⟨_, _, hasNext, rfl⟩
  | resume => exact Or.inl (spares_resume runner)
  | jump idle jumps =>
      simp only [isIdle, Bool.and_eq_true, List.isEmpty_iff] at idle
      exact absurd idle.1.1 someReady
  | ask => exact Or.inl (spares_of_eq rfl rfl rfl rfl rfl rfl)
  | goOn => exact Or.inl (spares_goOn runner)
  | drop => exact Or.inl (spares_drop runner)

theorem turnOf_rounds_of_dropped (isDropped : runner.dropped = true) :
    (runner.turnOf .rounds).engine = runner.engine.endRounds := by
  rw [turnOf, turnOfRounds, if_pos isDropped]
  unfold endRounds
  split <;> rw [engine_wake]

/-- At the turn of whoever is first the rounds end, or they are as near to their end as before. -/
theorem Leaves.turnOf {ready : List Participant} (leaves : runner.Leaves)
    (hasNext : runner.ready = task :: ready) :
    ({ runner with ready }.turnOf task).Closes ∧
      ∀ host, ({ runner with ready }.turnOf task).engine.callsOf host = runner.engine.callsOf host := by
  have evolves : runner.Evolves ({ runner with ready }.turnOf task) := .moves (.turn hasNext)
  rcases runner.engine.hasEnded_or_passing_or_awaits with ended | goesOn
  · exact (evolves.hasEnded ended).imp_left Or.inl
  obtain ⟨taken, absent⟩ := leaves.toInOrder.of_head hasNext
  obtain ⟨before, after, readyEq, noPass⟩ := leaves.endsFirst
  cases before with
  | nil =>
      rw [hasNext, List.nil_append, List.cons.injEq] at readyEq
      obtain ⟨rfl, -⟩ := readyEq
      have engineEq : ({ runner with ready }.turnOf .rounds).engine = runner.engine.endRounds :=
        turnOf_rounds_of_dropped leaves.isDropped
      rw [Closes, engineEq]
      exact ⟨Or.inl (Engine.hasEnded_endRounds _),
        Engine.callsOf_eq (Engine.responders_endRounds _)⟩
  | cons first before =>
      rw [hasNext, List.cons_append, List.cons.injEq] at readyEq
      obtain ⟨rfl, readyIs⟩ := readyEq
      have notRounds : task ≠ .rounds := by
        rintro rfl
        exact absent (by simp [line, readyIs])
      have spares : Spares { runner with ready } ({ runner with ready }.turnOf task) := by
        rcases goesOn with isPassing | ⟨due, awaits⟩
        · cases task with
          | worker => exact spares_turnOfWorker _ absent
          | rounds => exact absurd rfl notRounds
          | pass => exact absurd List.mem_cons_self (noPass isPassing)
        · exact spares_turnOf absent notRounds awaits
      obtain ⟨more, readyThen⟩ := spares.ready_prefix
      refine ⟨Or.inr ⟨evolves.attends leaves.toAttends, evolves.isDropped leaves.isDropped, before,
        after ++ more, ?_, ?_⟩, Engine.callsOf_eq spares.responders_eq⟩
      · rw [← readyThen, readyIs, List.append_assoc, List.cons_append]
      · rw [spares.isPassing_eq]
        exact fun isPassing member => noPass isPassing (List.mem_cons_of_mem _ member)

theorem Closes.of_evolves (closes : runner.Closes) (evolves : runner.Evolves next) :
    next.Closes ∧ ∀ host, next.engine.callsOf host = runner.engine.callsOf host := by
  rcases closes with ended | leaves
  · exact (evolves.hasEnded ended).imp_left Or.inl
  cases evolves with
  | change host responder sameCalls =>
      refine ⟨Or.inr ⟨?_, leaves.isDropped, leaves.endsFirst⟩, callsOf_setResponder sameCalls⟩
      exact (Evolves.change host responder sameCalls).attends leaves.toAttends
  | moves moves =>
      have someReady : runner.ready ≠ [] := by
        obtain ⟨before, after, readyEq, -⟩ := leaves.endsFirst
        simp [readyEq]
      rcases moves.spares_or_turn someReady with spares | ⟨task, ready, hasNext, rfl⟩
      · exact ⟨Or.inr (leaves.of_spares spares ((Evolves.moves moves).isDropped leaves.isDropped)),
          Engine.callsOf_eq spares.responders_eq⟩
      · exact leaves.turnOf hasNext

theorem closes_of_evolves (closes : runner.Closes)
    (evolves : Relation.ReflTransGen Evolves runner next) :
    next.Closes ∧ ∀ host, next.engine.callsOf host = runner.engine.callsOf host := by
  induction evolves with
  | refl => exact ⟨closes, fun _ => rfl⟩
  | tail _ evolves ih =>
      obtain ⟨closesBefore, callsEq⟩ := ih
      obtain ⟨closesThen, sameCalls⟩ := closesBefore.of_evolves evolves
      exact ⟨closesThen, fun host => (sameCalls host).trans (callsEq host)⟩

/-- A pass takes a turn, and hosts are asked in it and at no other time. -/
def AsksOnce (runner next : Runner) : Prop :=
  ∃ middle ready, Relation.ReflTransGen Evolves runner middle ∧ middle.ready = .pass :: ready ∧
    (∀ host, middle.engine.callsOf host = runner.engine.callsOf host) ∧
    Relation.ReflTransGen Evolves ({ middle with ready }.turnOf .pass) next ∧
    ∀ host, next.engine.callsOf host = ({ middle with ready }.turnOf .pass).engine.callsOf host

/-- After its turn the pass is behind the rounds. -/
theorem Lingers.closes_turnOf_pass {ready : List Participant} (lingers : runner.Lingers)
    (hasNext : runner.ready = .pass :: ready) : ({ runner with ready }.turnOf .pass).Closes := by
  have evolves : runner.Evolves ({ runner with ready }.turnOf .pass) := .moves (.turn hasNext)
  obtain ⟨taken, absent⟩ := lingers.toInOrder.of_head hasNext
  obtain ⟨before, between, after, readyEq⟩ := lingers.passFirst
  cases before with
  | cons first before =>
      rw [hasNext, List.cons_append, List.cons.injEq] at readyEq
      exact absurd (by simp [line, readyEq.2]) absent
  | nil =>
      rw [hasNext, List.nil_append, List.cons.injEq] at readyEq
      obtain ⟨-, readyIs⟩ := readyEq
      obtain ⟨more, readyThen⟩ := ready_prefix_turnOfPass { runner with ready }.passLimit turnLength
        { runner with ready }
      refine Or.inr ⟨evolves.attends lingers.toAttends, evolves.isDropped lingers.isDropped, between,
        after ++ more, ?_, fun _ member => absent ?_⟩
      · rw [turnOf, ← readyThen, readyIs, List.append_assoc, List.cons_append]
      · simp [line, readyIs, member]

/-- Before the turn of the pass nobody is asked. -/
theorem Lingers.of_evolves (lingers : runner.Lingers) (evolves : runner.Evolves next) :
    next.Lingers ∧ (∀ host, next.engine.callsOf host = runner.engine.callsOf host) ∨
      ∃ ready, runner.ready = .pass :: ready ∧ next = { runner with ready }.turnOf .pass := by
  cases evolves with
  | change host responder sameCalls =>
      refine Or.inl ⟨⟨?_, lingers.isDropped, lingers.passFirst⟩, callsOf_setResponder sameCalls⟩
      exact (Evolves.change host responder sameCalls).attends lingers.toAttends
  | moves moves =>
      obtain ⟨before, between, after, readyEq⟩ := lingers.passFirst
      have isDropped := (Evolves.moves moves).isDropped lingers.isDropped
      rcases moves.spares_or_turn (by simp [readyEq]) with spares | ⟨task, ready, hasNext, rfl⟩
      · exact Or.inl ⟨lingers.of_spares spares isDropped, Engine.callsOf_eq spares.responders_eq⟩
      cases before with
      | nil =>
          rw [hasNext, List.nil_append, List.cons.injEq] at readyEq
          obtain ⟨rfl, -⟩ := readyEq
          exact Or.inr ⟨ready, hasNext, rfl⟩
      | cons first before =>
          rw [hasNext, List.cons_append, List.cons.injEq] at readyEq
          obtain ⟨rfl, readyIs⟩ := readyEq
          obtain ⟨taken, absent⟩ := lingers.toInOrder.of_head hasNext
          cases task with
          | rounds => exact absurd (by simp [line, readyIs]) absent
          | pass => exact absurd (by simp [line, readyIs]) absent
          | worker =>
              have spares := spares_turnOfWorker turnLength absent
              obtain ⟨more, readyThen⟩ := spares.ready_prefix
              refine Or.inl ⟨⟨(Evolves.moves moves).attends lingers.toAttends, isDropped, before,
                between, after ++ more, ?_⟩, Engine.callsOf_eq spares.responders_eq⟩
              rw [turnOf, ← readyThen, readyIs]
              simp

theorem asksOnce_of_lingers (lingers : runner.Lingers)
    (evolves : Relation.ReflTransGen Evolves runner next) :
    next.Lingers ∧ (∀ host, next.engine.callsOf host = runner.engine.callsOf host) ∨
      next.Closes ∧ runner.AsksOnce next := by
  induction evolves with
  | refl => exact Or.inl ⟨lingers, fun _ => rfl⟩
  | @tail middle next earlier evolves ih =>
      rcases ih with ⟨lingersStill, callsEq⟩ |
        ⟨closes, turning, ready, before, hasNext, callsBefore, after, callsAfter⟩
      · rcases lingersStill.of_evolves evolves with ⟨lingersThen, sameCalls⟩ | ⟨ready, hasNext, rfl⟩
        · exact Or.inl ⟨lingersThen, fun host => (sameCalls host).trans (callsEq host)⟩
        · exact Or.inr ⟨lingersStill.closes_turnOf_pass hasNext, middle, ready, earlier, hasNext,
            callsEq, .refl, fun _ => rfl⟩
      · obtain ⟨closesThen, sameCalls⟩ := closes.of_evolves evolves
        exact Or.inr ⟨closesThen, turning, ready, before, hasNext, callsBefore, after.tail evolves,
          fun host => (sameCalls host).trans (callsAfter host)⟩

/-- With the rounds in line nobody is asked before they end, unless a pass stands before them. -/
theorem closes_or_lingers_drop (attends : runner.Attends) :
    ((runner.engine.isPassing = false ∨ .pass ∉ runner.ready) → runner.drop.Closes) ∧
      (runner.drop.Closes ∨ runner.drop.Lingers) := by
  have evolves : runner.Evolves runner.drop := .moves .drop
  have isDropped := dropped_drop runner
  have attendsThen := evolves.attends attends
  by_cases isClosed : { runner with dropped := true }.isClosed = true
  · have ended : runner.drop.engine.HasEnded := by
      rw [engine_drop]
      unfold Runner.isClosed at isClosed
      simp only [Bool.true_and] at isClosed
      split at isClosed
      · next isOff => exact Or.inl isOff
      · cases isClosed
    exact ⟨fun _ => Or.inl ended, Or.inl (Or.inl ended)⟩
  · have dropEq : runner.drop = { runner with dropped := true }.wake .rounds := by
      rw [drop, if_neg isClosed]
    have told : { runner with dropped := true }.InOrder := ⟨attends.nodup, attends.holds⟩
    have stands : .rounds ∈ runner.drop.ready := dropEq ▸ told.rounds_mem_wake
    obtain ⟨before, after, readyEq⟩ := List.append_of_mem stands
    have closes (noPass : runner.drop.engine.isPassing = true → .pass ∉ before) : runner.drop.Closes :=
      Or.inr ⟨attendsThen, isDropped, before, after, readyEq, noPass⟩
    have wasReady (member : .pass ∈ before) : .pass ∈ runner.ready := by
      have isReady : .pass ∈ runner.drop.ready := readyEq ▸ List.mem_append_left _ member
      rw [dropEq] at isReady
      exact (mem_ready_wake isReady).resolve_right (by decide)
    constructor
    · rintro (notPassing | notReady)
      · refine closes fun isPassing => ?_
        rw [engine_drop, notPassing] at isPassing
        cases isPassing
      · exact closes fun _ member => notReady (wasReady member)
    · by_cases member : .pass ∈ before
      · obtain ⟨first, between, beforeEq⟩ := List.append_of_mem member
        refine Or.inr ⟨attendsThen, isDropped, first, between, after, ?_⟩
        rw [readyEq, beforeEq, List.append_assoc, List.cons_append]
      · exact Or.inl (closes fun _ => member)

/-- When a scheduler is dropped while no pass goes on, or while the pass waits or has stepped
back, no host is ever asked again, whatever the caller and the hosts do.  A pass that
waits for a reply or for room does not stand in line.  One that does has one more turn, and no host
is asked but in it.  That the rounds end before a pass behind them has a turn holds because a single
thread serves the line from the front. -/
theorem dismissal_leaves_one_turn {router : AutoRouter Float} {hosts : List Host} {bucketCount : Nat}
    {method : HashMethod} {options : AutoOptions}
    (built : AutoRouter.build hosts bucketCount method options true = .ok router)
    (script : Nat → Responder) (journal : Journal) (runner : Runner)
    (evolves : Relation.ReflTransGen Evolves (begin router script options journal) runner) :
    (runner.engine.AwaitsReply ∨ runner.engine.AwaitsRoom → .pass ∉ runner.ready) ∧
    ∀ next, Relation.ReflTransGen Evolves runner.drop next →
      (runner.engine.isPassing = false ∨ .pass ∉ runner.ready →
        ∀ host, next.engine.callsOf host = runner.engine.callsOf host) ∧
      ((∀ host, next.engine.callsOf host = runner.engine.callsOf host) ∨ runner.drop.AsksOnce next) := by
  obtain ⟨closesAtOnce, closesOrLingers⟩ := closes_or_lingers_drop (attends_of_evolves evolves)
  constructor
  · intro waits isReady
    exact (patient_of_evolves built evolves).pass_not_mem_line waits (List.mem_append_left _ isReady)
  · intro next evolvesThen
    have sameAtDrop (calls : ∀ host, next.engine.callsOf host = runner.drop.engine.callsOf host) :
        ∀ host, next.engine.callsOf host = runner.engine.callsOf host := by
      rwa [engine_drop] at calls
    constructor
    · exact fun quiet => sameAtDrop (closes_of_evolves (closesAtOnce quiet) evolvesThen).2
    · rcases closesOrLingers with closes | lingers
      · exact Or.inl (sameAtDrop (closes_of_evolves closes evolvesThen).2)
      · rcases asksOnce_of_lingers lingers evolvesThen with ⟨-, calls⟩ | ⟨-, asksOnce⟩
        · exact Or.inl (sameAtDrop calls)
        · exact Or.inr asksOnce

def sixteenBuckets (hostCount : Nat) : AutoRouter Float :=
  ⟨(List.range hostCount).map fun host => ⟨toString host⟩, 16, .default,
    Dispatch.initial hostCount 16 1024⟩

def slowHost (host : Nat) : Responder :=
  ⟨⟨toString host⟩, [], fun _ => 5, false, [], 0, none⟩

def twoSlowHosts : Runner :=
  (begin (sixteenBuckets 2) slowHost ⟨1000, 1024, true⟩ (.empty none)).advance 2

/-- When it is dropped while the first reply is on its way, the second host is never asked. -/
theorem dismissal_leaves_one_turn_of_waiting_pass :
    twoSlowHosts.engine.isPassing = true ∧ .pass ∉ twoSlowHosts.ready ∧
      ∀ span, (twoSlowHosts.drop.advance span).engine.callsOf 0 = some 1 ∧
        (twoSlowHosts.drop.advance span).engine.callsOf 1 = some 0 := by
  have built : AutoRouter.build ((List.range 2).map fun host => ⟨toString host⟩) 16 .default
      ⟨1000, 1024, true⟩ true = .ok (sixteenBuckets 2) := rfl
  have outOfLine : .pass ∉ twoSlowHosts.ready := by decide +kernel
  have calls : twoSlowHosts.engine.callsOf 0 = some 1 ∧ twoSlowHosts.engine.callsOf 1 = some 0 := by
    decide +kernel
  refine ⟨by decide +kernel, outOfLine, fun span => ?_⟩
  have sameCalls := ((dismissal_leaves_one_turn built slowHost (.empty none) twoSlowHosts
    (evolves_of_moves (moves_advance _ 2))).2 _
    (evolves_of_moves (moves_advance twoSlowHosts.drop span))).1 (Or.inr outOfLine)
  exact ⟨(sameCalls 0).trans calls.1, (sameCalls 1).trans calls.2⟩

def busyHost (host : Nat) : Responder :=
  ⟨⟨toString host⟩, [], fun _ => 0, false, [("@", [.body ("0/ 0 4\n1/ 0 4\n2/ 0 4\n3/ 0 4\n4/ 0 4\n5/ 0 4\n" ++
    "6/ 0 4\n7/ 0 4\n8/ 0 4\n9/ 0 4\na/ 0 4\nb/ 0 4\nc/ 0 4\nd/ 0 4\ne/ 0 4\nf/ 0 4").toUTF8.toList])],
    0, none⟩

/-- A scheduler of ten such hosts when the first pass has reported what eight of them list, and has
stepped back for the report of a caller. -/
def tenBusyHosts : Runner :=
  (begin (sixteenBuckets 10) busyHost ⟨10000, 1024, true⟩ (.empty none)).submit
    [.report "0" "@1" 1]

/-- When it is dropped then, the pass stands in line before the rounds, and the tenth host is asked
after the drop. -/
theorem pass_in_line_asks_after_drop :
    Relation.ReflTransGen Evolves
        (begin (sixteenBuckets 10) busyHost ⟨10000, 1024, true⟩ (.empty none)) tenBusyHosts ∧
      Relation.ReflTransGen Evolves tenBusyHosts.drop (tenBusyHosts.drop.advance 2) ∧
      tenBusyHosts.engine.callsOf 9 = some 0 ∧
      (tenBusyHosts.drop.advance 2).engine.callsOf 9 = some 1 := by
  refine ⟨?_, evolves_of_moves (moves_advance _ 2), by decide +kernel⟩
  unfold tenBusyHosts
  exact evolves_of_moves (moves_perform _ none _)

end Runner

end CacheRouting
