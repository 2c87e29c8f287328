import CacheRouting.Proofs.Auto.Passes

/-!
# Steps of a runner that is not dropped

Until the scheduler is dropped, a runner takes no steps but those of its engine, and
each of them is one of the actions that can be watched, unless a pass breaks off.
-/

namespace CacheRouting

/-- Until the scheduler is dropped, a step is an action, or the rounds hear of a pass that has
been broken off, or a pass stops. -/
theorem Engine.Step.exists_act {engine next : Engine} (step : Engine.Step false engine next) :
    (∃ action, engine.act action = next) ∨ next = engine.tellBroken ∨
      engine.activity = .stopping := by
  have acts (action : Engine.Action) (isNext : engine.act action = next) :
      (∃ action, engine.act action = next) ∨ next = engine.tellBroken ∨
        engine.activity = .stopping := Or.inl ⟨action, isNext⟩
  cases step with
  | work works => exact acts .work (by rw [Engine.act, works, Option.getD_some])
  | pass isPassing => exact acts .pass (by rw [Engine.act, isPassing])
  | start isResting isDue =>
      exact acts .start (by simp only [Engine.act, isResting, if_pos isDue])
  | @refuse submission event isEvent =>
      exact acts (.submit submission) (by simp only [Engine.act, isEvent])
  | @send submission message next isMessage sends =>
      exact acts (.submit submission)
        (by simp only [Engine.act, isMessage, sends, Option.getD_some])
  | @wait submission message isMessage isFull =>
      exact acts (.submit submission)
        (by simp only [Engine.act, isMessage, isFull, Option.getD_none])
  | jump time =>
      have sameTime : engine.now + (time - engine.now) = max engine.now time := by
        omega
      exact acts (.elapse (time - engine.now)) (by rw [Engine.act, sameTime])
  | tell => exact Or.inr (Or.inl rfl)
  | stop isStopping => exact Or.inr (Or.inr isStopping)
  | endRounds isDropped => cases isDropped
  | endWorker isDropped event => cases isDropped

namespace Runner

theorem dropped_drop (runner : Runner) : runner.drop.dropped = true := by
  unfold drop
  dsimp only
  split <;> simp

/-- Nothing but what an engine does by itself has happened to one that has not been dropped. -/
theorem steps_of_moves {start runner : Runner} (moves : Relation.ReflTransGen Moves start runner)
    (isHeld : runner.dropped = false) :
    Relation.ReflTransGen (Engine.Step false) start.engine runner.engine := by
  induction moves with
  | refl => exact .refl
  | @tail before next _ moves ih =>
      rcases moves.goes_or_drop with goes | rfl
      · have wasHeld : before.dropped = false := goes.dropped_eq.symm.trans isHeld
        exact (ih wasHeld).trans (wasHeld ▸ goes.steps)
      · rw [dropped_drop] at isHeld
        cases isHeld

end Runner

end CacheRouting
