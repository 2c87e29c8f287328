import CacheRouting.Proofs.Auto.Survival

/-!
# Runners among hosts that change

While a runner does what it does, hosts take to answering in other ways: at other
speed, with other listings, or not at all.  Rounds attend all the same, a runner
that has not been dropped does nothing that could not be recorded, and one whose
rounds have ended asks no host any more.
-/

namespace CacheRouting

namespace Engine

variable {dropped : Bool} {engine next : Engine}

/-- There will be no more passes, and none goes on but to stop. -/
def HasEnded (engine : Engine) : Prop :=
  engine.activity = .off ∨ engine.activity = .stopping

theorem HasEnded.isPassing_eq (ended : engine.HasEnded) : engine.isPassing = false := by
  rcases ended with isOff | isStopping
  · rw [isPassing, isOff]
  · rw [isPassing, isStopping]

theorem HasEnded.nextTick?_eq (ended : engine.HasEnded) : engine.nextTick? = none := by
  rcases ended with isOff | isStopping
  · rw [nextTick?, isOff]
  · rw [nextTick?, isStopping]

theorem hasEnded_endRounds (engine : Engine) : engine.endRounds.HasEnded := by
  unfold endRounds
  split
  · exact Or.inr rfl
  · next isStopping => exact Or.inr isStopping
  · exact Or.inl rfl

theorem responders_tellBroken (engine : Engine) : engine.tellBroken.responders = engine.responders := by
  obtain ⟨journal, activity, toldEq, -⟩ := engine.tellBroken_eq
  rw [toldEq]

theorem responders_endRounds (engine : Engine) : engine.endRounds.responders = engine.responders := by
  unfold endRounds
  split <;> rfl

/-- Only a pass that goes on asks hosts. -/
theorem Step.responders_eq (step : Step dropped engine next) (notPassing : engine.isPassing = false) :
    next.responders = engine.responders := by
  cases step with
  | work works =>
      obtain ⟨dispatch, -, rfl⟩ := Option.map_eq_some_iff.mp works
      rfl
  | pass isPassing =>
      rw [Engine.isPassing, isPassing] at notPassing
      cases notPassing
  | start isResting isDue => rfl
  | refuse isEvent => rfl
  | send isMessage sends =>
      obtain ⟨dispatch, -, rfl⟩ := Option.map_eq_some_iff.mp sends
      rfl
  | wait isMessage isFull => rfl
  | jump time => rfl
  | tell => exact responders_tellBroken engine
  | stop isStopping => rfl
  | endRounds isDropped => exact responders_endRounds engine
  | endWorker isDropped event => rfl

/-- Rounds that have ended never begin again. -/
theorem Step.hasEnded (step : Step dropped engine next) (ended : engine.HasEnded) : next.HasEnded := by
  have notAwaits {due : Nat} (awaits : engine.Awaits due) : next.HasEnded := by
    rcases ended with activity | activity <;> rcases awaits with other | other <;>
      cases activity.symm.trans other
  cases step with
  | work works =>
      obtain ⟨dispatch, -, rfl⟩ := Option.map_eq_some_iff.mp works
      exact ended
  | pass isPassing =>
      have notPassing := ended.isPassing_eq
      rw [Engine.isPassing, isPassing] at notPassing
      cases notPassing
  | start isResting isDue => exact notAwaits (Or.inl isResting)
  | refuse isEvent => exact ended
  | send isMessage sends =>
      obtain ⟨dispatch, -, rfl⟩ := Option.map_eq_some_iff.mp sends
      exact ended
  | wait isMessage isFull => exact ended
  | jump time => exact ended
  | tell =>
      obtain ⟨journal, activity, toldEq, rfl | ⟨due, isBroken, -⟩⟩ := engine.tellBroken_eq
      · rw [toldEq]
        exact ended
      · exact notAwaits (Or.inr isBroken)
  | stop isStopping => exact Or.inl rfl
  | endRounds isDropped => exact hasEnded_endRounds engine
  | endWorker isDropped event => exact ended

theorem HasEnded.of_steps (ended : engine.HasEnded)
    (steps : Relation.ReflTransGen (Step dropped) engine next) :
    next.HasEnded ∧ next.responders = engine.responders := by
  induction steps with
  | refl => exact ⟨ended, rfl⟩
  | tail _ step ih =>
      obtain ⟨endedBefore, respondersEq⟩ := ih
      exact ⟨step.hasEnded endedBefore,
        (step.responders_eq endedBefore.isPassing_eq).trans respondersEq⟩

end Engine

namespace Runner

open Engine (HasEnded)

variable {start runner next : Runner}

def begin (router : AutoRouter Float) (script : Nat → Responder) (options : AutoOptions)
    (journal : Journal) : Runner :=
  .start (Engine.start router ((List.range router.hosts.length).map script) options journal) options

def setResponder (runner : Runner) (host : Nat) (responder : Responder) : Runner :=
  { runner with
    engine := { runner.engine with
      responders := runner.engine.responders.setIfInBounds host responder } }

/-- What can happen to a runner and around it.  How a host answers can change at any time, but
not how often it has been asked. -/
inductive Evolves (runner : Runner) : Runner → Prop
  | moves {next : Runner} (moves : runner.Moves next) : Evolves runner next
  | change (host : Nat) (responder : Responder)
      (sameCalls : ∀ known, runner.engine.responders[host]? = some known →
        responder.calls = known.calls) :
      Evolves runner (runner.setResponder host responder)

theorem evolves_of_moves (moves : Relation.ReflTransGen Moves runner next) :
    Relation.ReflTransGen Evolves runner next :=
  Relation.ReflTransGen.mono (fun _ _ => .moves) _ _ moves

theorem callsOf_setResponder {host : Nat} {responder : Responder}
    (sameCalls : ∀ known, runner.engine.responders[host]? = some known →
      responder.calls = known.calls) (other : Nat) :
    (runner.setResponder host responder).engine.callsOf other = runner.engine.callsOf other := by
  unfold Engine.callsOf setResponder
  by_cases own : host = other
  · subst own
    by_cases known : host < runner.engine.responders.size
    · have isKnown := Array.getElem?_eq_getElem known
      rw [Array.getElem?_setIfInBounds_self_of_lt known, isKnown, Option.map_some, Option.map_some,
        sameCalls _ isKnown]
    · rw [Array.setIfInBounds_eq_of_size_le (Nat.le_of_not_lt known)]
  · rw [Array.getElem?_setIfInBounds_ne own]

theorem Evolves.attends (evolves : runner.Evolves next) (attends : runner.Attends) : next.Attends := by
  cases evolves with
  | moves moves => exact attends.of_move moves
  | change host responder sameCalls =>
      exact ⟨⟨attends.nodup, attends.holds⟩, attends.tells, attends.begins⟩

/-- Whatever happens around a runner as well, its rounds attend. -/
theorem attends_of_evolves {router : AutoRouter Float} {script : Nat → Responder}
    {options : AutoOptions} {journal : Journal}
    (evolves : Relation.ReflTransGen Evolves (begin router script options journal) runner) :
    runner.Attends := by
  induction evolves with
  | refl => exact attends_start ..
  | tail _ evolves ih => exact evolves.attends ih

/-- A scheduler that has been dropped stays so. -/
theorem Evolves.isDropped (evolves : runner.Evolves next) (isDropped : runner.dropped = true) :
    next.dropped = true := by
  cases evolves with
  | moves moves =>
      rcases moves.goes_or_drop with goes | rfl
      · exact goes.dropped_eq.trans isDropped
      · exact dropped_drop runner
  | change => exact isDropped

/-- With rounds that have ended no host is asked. -/
theorem Evolves.hasEnded (evolves : runner.Evolves next) (ended : runner.engine.HasEnded) :
    next.engine.HasEnded ∧ ∀ host, next.engine.callsOf host = runner.engine.callsOf host := by
  cases evolves with
  | moves moves =>
      rcases moves.goes_or_drop with goes | rfl
      · obtain ⟨endedThen, respondersEq⟩ := ended.of_steps goes.steps
        exact ⟨endedThen, fun host => by rw [Engine.callsOf, respondersEq, Engine.callsOf]⟩
      · rw [engine_drop]
        exact ⟨ended, fun _ => rfl⟩
  | change host responder sameCalls => exact ⟨ended, callsOf_setResponder sameCalls⟩

theorem hasEnded_of_evolves (evolves : Relation.ReflTransGen Evolves runner next)
    (ended : runner.engine.HasEnded) :
    next.engine.HasEnded ∧ ∀ host, next.engine.callsOf host = runner.engine.callsOf host := by
  induction evolves with
  | refl => exact ⟨ended, fun _ => rfl⟩
  | tail _ evolves ih =>
      obtain ⟨endedBefore, callsEq⟩ := ih
      obtain ⟨endedThen, sameCalls⟩ := evolves.hasEnded endedBefore
      exact ⟨endedThen, fun host => (sameCalls host).trans (callsEq host)⟩

/-- Until the scheduler is dropped, whatever becomes of a runner can be recorded. -/
theorem exists_occurrences_of_evolves {chronicle : Chronicle} {router : AutoRouter Float}
    {interval : Nat} (isTrue : chronicle.IsTrue router interval) (positive : 0 < interval)
    (startEq : chronicle.watch.engine = start.engine)
    (evolves : Relation.ReflTransGen Evolves start runner) (isHeld : runner.dropped = false) :
    ∃ occurrences, (chronicle.recordAll occurrences).watch.engine = runner.engine := by
  induction evolves with
  | refl => exact ⟨[], startEq⟩
  | @tail before next _ evolves ih =>
      have wasHeld : before.dropped = false := by
        cases wasDropped : before.dropped with
        | false => rfl
        | true => exact (evolves.isDropped wasDropped).symm.trans isHeld
      obtain ⟨occurrences, ran⟩ := ih wasHeld
      cases evolves with
      | moves moves =>
          rcases moves.goes_or_drop with goes | rfl
          · have steps := goes.steps
            rw [wasHeld, ← ran] at steps
            obtain ⟨more, ranThen⟩ :=
              (isTrue.recordAll positive occurrences).exists_occurrences_of_steps positive steps
            exact ⟨occurrences ++ more, by rw [Chronicle.recordAll_append, ranThen]⟩
          · rw [dropped_drop] at isHeld
            cases isHeld
      | change host responder sameCalls =>
          refine ⟨occurrences ++ [.change host responder], ?_⟩
          rw [Chronicle.recordAll_append]
          change ((chronicle.recordAll occurrences).watch.occur (.change host responder)).engine = _
          rw [Watch.occur, ran]
          rfl

end Runner

end CacheRouting
