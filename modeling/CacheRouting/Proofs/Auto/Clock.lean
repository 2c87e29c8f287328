import CacheRouting.Proofs.Auto.Watch

/-!
# What becomes of the clock

In a step of a pass the clock stands still, and the last check changes only when the
pass is completed.  What the rounds do about a pass that has been broken off concerns
neither the hosts nor the messages.
-/

namespace CacheRouting

namespace Engine

/-- The clock, its rhythm and the last check stay as they are. -/
structure KeepsTime (engine next : Engine) : Prop where
  now_eq : next.now = engine.now
  interval_eq : next.interval = engine.interval
  lastCheck_eq : next.lastCheck = engine.lastCheck

theorem keepsTime_receive (engine : Engine) (due : Nat) (pass : Pass) (host : Nat) (probe : String)
    (rest : List (Nat × String)) (reply : Reply) :
    engine.KeepsTime (engine.receive due pass host probe rest reply) := by
  unfold receive
  dsimp only
  split <;> exact ⟨rfl, rfl, rfl⟩

theorem keepsTime_hear (engine : Engine) (due : Nat) (pass : Pass) (host : Nat) (probe : String)
    (rest : List (Nat × String)) (answer : Answer) :
    engine.KeepsTime (engine.hear due pass host probe rest answer).2 := by
  cases answer with
  | broken => exact ⟨rfl, rfl, rfl⟩
  | replied reply => exact keepsTime_receive ..

theorem keepsTime_ask (engine : Engine) (due : Nat) (pass : Pass) (host : Nat) (probe : String)
    (rest : List (Nat × String)) (responder : Responder) :
    engine.KeepsTime (engine.ask due pass host probe rest responder).2 := by
  unfold ask
  dsimp only
  split
  · obtain ⟨now, interval, lastCheck⟩ := keepsTime_hear { engine with
      responders := engine.responders.setIfInBounds host (responder.ask probe).2 } due pass host probe
      rest (responder.ask probe).1.answer
    exact ⟨now, interval, lastCheck⟩
  · exact ⟨rfl, rfl, rfl⟩

theorem keepsTime_reportEntry (engine : Engine) (due : Nat) (pass : Pass) (host : Nat) (key : String)
    (amount : Float) (entries : List (String × Float)) :
    engine.KeepsTime (engine.reportEntry due pass host key amount entries).2 := by
  unfold reportEntry
  dsimp only
  split
  · split <;> exact ⟨rfl, rfl, rfl⟩
  · exact ⟨rfl, rfl, rfl⟩

theorem keepsTime_passStep (engine : Engine) (due : Nat) {pass : Pass} (someLeft : pass.remaining ≠ []) :
    engine.KeepsTime (engine.passStep due pass).2 := by
  unfold passStep
  split
  · next noneLeft => exact absurd noneLeft someLeft
  · split
    · split
      · exact keepsTime_ask ..
      · exact ⟨rfl, rfl, rfl⟩
    · split
      · exact keepsTime_hear ..
      · exact ⟨rfl, rfl, rfl⟩
    · exact ⟨rfl, rfl, rfl⟩
    · exact keepsTime_reportEntry ..

/-- With nothing left a pass is completed, which is noted as the last check. -/
theorem passStep_of_noneLeft (engine : Engine) (due : Nat) {pass : Pass}
    (noneLeft : pass.remaining = []) :
    (engine.passStep due pass).2.activity = .resting due ∧
      (engine.passStep due pass).2.now = engine.now ∧
      (engine.passStep due pass).2.interval = engine.interval ∧
      (engine.passStep due pass).2.lastCheck = some engine.now := by
  obtain ⟨journal, notedEq⟩ := noteOrders_eq engine
  unfold passStep
  rw [noneLeft]
  simp only [finishPass, note, notedEq, and_self]

/-- What is no step of a pass lets the clock go on and keeps its rhythm and the last check. -/
theorem act_of_ne_pass (engine : Engine) {action : Action} (notPass : action ≠ .pass) :
    engine.now ≤ (engine.act action).now ∧ (engine.act action).interval = engine.interval ∧
      (engine.act action).lastCheck = engine.lastCheck := by
  have refl : engine.now ≤ engine.now ∧ engine.interval = engine.interval ∧
      engine.lastCheck = engine.lastCheck := ⟨Nat.le_refl _, rfl, rfl⟩
  cases action with
  | start =>
      dsimp only [act]
      split
      · split <;> exact refl
      · exact refl
  | pass => exact absurd rfl notPass
  | work =>
      dsimp only [act, work?]
      cases engine.router.dispatch.work? <;> exact refl
  | submit submission =>
      dsimp only [act]
      split
      · exact refl
      · unfold send?
        cases engine.router.dispatch.send? caller _ <;> exact refl
  | giveUp => exact refl
  | elapse time => exact ⟨Nat.le_add_right .., rfl, rfl⟩

theorem tellBroken_eq (engine : Engine) :
    ∃ journal activity, engine.tellBroken = { engine with journal, activity } ∧
      (activity = engine.activity ∨
        ∃ due, engine.activity = .broken due ∧ activity = .resting due) := by
  unfold tellBroken
  split
  · next due isBroken => exact ⟨_, _, rfl, Or.inr ⟨due, isBroken, rfl⟩⟩
  · exact ⟨_, _, rfl, Or.inl rfl⟩

theorem tellBroken_ne_broken (engine : Engine) (due : Nat) :
    engine.tellBroken.activity ≠ .broken due := by
  unfold tellBroken
  split
  · simp [note]
  · next notBroken => exact notBroken due

/-- A pass is due at a time, once the rounds have heard of the one before. -/
def Awaits (engine : Engine) (due : Nat) : Prop :=
  engine.activity = .resting due ∨ engine.activity = .broken due

theorem activity_tellBroken_of_awaits {engine : Engine} {due : Nat} (awaits : engine.Awaits due) :
    engine.tellBroken.activity = .resting due := by
  rcases awaits with isResting | isBroken
  · simp [tellBroken, isResting]
  · simp [tellBroken, isBroken, note]

theorem lt_nextDue {engine : Engine} (positive : 0 < engine.interval) (due : Nat) :
    due < engine.nextDue due := by
  unfold nextDue
  split <;> omega

theorem nextDue_le {engine : Engine} {due : Nat} (isDue : due ≤ engine.now) :
    engine.nextDue due ≤ engine.now + engine.interval := by
  unfold nextDue
  split <;> omega

end Engine

theorem Watch.IsServed.setEngine {router : AutoRouter Float} {watch : Watch}
    (served : watch.IsServed router) {engine : Engine} (routerEq : engine.router = watch.engine.router)
    (probesEq : engine.probes = watch.engine.probes) :
    ({ watch with engine } : Watch).IsServed router where
  router_eq := by rw [routerEq, served.router_eq]
  probes_eq := probesEq.trans served.probes_eq
  hand_eq := by rw [routerEq]; exact served.hand_eq
  follows := by rw [routerEq]; exact served.follows
  isBounded := by rw [routerEq]; exact served.isBounded
  senders := by rw [routerEq]; exact served.senders

end CacheRouting
