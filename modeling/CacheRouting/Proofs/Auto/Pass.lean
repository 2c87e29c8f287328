import CacheRouting.Proofs.Auto.Runner
import CacheRouting.Proofs.Auto.Script

/-!
# Steps of a pass

A pass has in hand what it has heard and not yet reported, and later probes to go
through.  A step of it asks the next of these, or sends the next report, or does
neither and leaves both as they are; it is over when nothing is left, or when a call
has broken off.
-/

namespace CacheRouting

open Discovery (heed leave)

namespace Pass

def inHand (pass : Pass) : List (Nat × String × Float) :=
  match pass.remaining, pass.stage with
  | (host, probe) :: _, .awaiting _ answer =>
      (answer.entries probe).map fun entry => (host, entry)
  | (host, _) :: _, .reporting entries => entries.map fun entry => (host, entry)
  | _, _ => []

def later (pass : Pass) : List (Nat × String) :=
  match pass.remaining, pass.stage with
  | (host, _) :: rest, .awaiting _ answer => leave host rest answer
  | _ :: rest, .reporting _ => rest
  | remaining, _ => remaining

def IsBreaking (pass : Pass) : Prop :=
  pass.remaining ≠ [] ∧ ∃ time, pass.stage = .awaiting time .broken

theorem not_isBreaking_of_stage {pass : Pass}
    (notAwaiting : ∀ time answer, pass.stage ≠ .awaiting time answer) : ¬ pass.IsBreaking := by
  rintro ⟨-, time, isAwaiting⟩
  exact notAwaiting time .broken isAwaiting

theorem IsBreaking.inHand_eq {pass : Pass} (isBreaking : pass.IsBreaking) : pass.inHand = [] := by
  obtain ⟨someLeft, time, isAwaiting⟩ := isBreaking
  obtain ⟨next, rest, remaining⟩ := List.exists_cons_of_ne_nil someLeft
  rw [inHand, remaining, isAwaiting]
  rfl

def rank (pass : Pass) : Nat ×ₗ Nat ×ₗ Nat :=
  match pass.stage with
  | .asking => toLex (pass.remaining.length, toLex (2, 0))
  | .awaiting _ _ => toLex (pass.remaining.length, toLex (1, 0))
  | .reporting entries => toLex (pass.remaining.length, toLex (0, entries.length))

section Ranks

variable {probesLeft : Nat}

theorem rank_lt_of_fewer_probes {fewer : Nat} (less : fewer < probesLeft) (first second : Nat ×ₗ Nat) :
    toLex (fewer, first) < toLex (probesLeft, second) :=
  Prod.Lex.toLex_lt_toLex.mpr (Or.inl less)

theorem rank_lt_of_later_stage {later stage : Nat} (less : later < stage) (first second : Nat) :
    toLex (probesLeft, toLex (later, first)) < toLex (probesLeft, toLex (stage, second)) :=
  Prod.Lex.toLex_lt_toLex.mpr (Or.inr ⟨rfl, Prod.Lex.toLex_lt_toLex.mpr (Or.inl less)⟩)

theorem rank_lt_of_fewer_entries {fewer entriesLeft stage : Nat} (less : fewer < entriesLeft) :
    toLex (probesLeft, toLex (stage, fewer)) < toLex (probesLeft, toLex (stage, entriesLeft)) :=
  Prod.Lex.toLex_lt_toLex.mpr (Or.inr ⟨rfl, Prod.Lex.toLex_lt_toLex.mpr (Or.inr ⟨rfl, less⟩)⟩)

end Ranks

end Pass

namespace Engine

structure GoesOn (engine next : Engine) (due : Nat) (pass : Pass) : Prop where
  activity_eq : next.activity = .passing due pass
  probes_eq : next.probes = engine.probes

/-- Whether the next step of a pass has nothing to wait for. -/
def IsFree (engine : Engine) (pass : Pass) : Prop :=
  match pass.stage with
  | .awaiting time _ => time ≤ engine.now
  | .reporting (_ :: _) =>
      ∀ message, (engine.router.dispatch.send? .discovery message).isSome = true
  | _ => True

/-- Whether the hosts that a pass has still to ask are there, and what it has in hand can be
reported. -/
structure IsReady (engine : Engine) (pass : Pass) : Prop where
  exists_responder : ∀ next ∈ pass.later, ∃ responder, engine.responders[next.1]? = some responder
  finite : ∀ entry ∈ pass.inHand, entry.2.2.isFinite = true

inductive PassMove (engine : Engine) (due : Nat) (pass : Pass) (next : Engine) : Prop
  | finish (noneLeft : pass.remaining = []) (activity : next.activity = .resting due)
      (probes : next.probes = engine.probes) (responders : next.responders = engine.responders)
      (router : next.router = engine.router)
  | ask {host : Nat} {probe : String} {later : List (Nat × String)} {responder : Responder}
      {after : Pass} (noneInHand : pass.inHand = []) (isNext : pass.later = (host, probe) :: later)
      (isResponder : engine.responders[host]? = some responder)
      (goesOn : engine.GoesOn next due after)
      (inHand : after.inHand =
        ((responder.nextCall probe).answer.entries probe).map fun entry => (host, entry))
      (laterEq : after.later = leave host later (responder.nextCall probe).answer)
      (breaks_iff : after.IsBreaking ↔ (responder.nextCall probe).answer = .broken)
      (responders : next.responders = engine.responders.setIfInBounds host (responder.count probe))
      (router : next.router = engine.router) (lower : after.rank < pass.rank)
  | askBroken {host : Nat} {probe : String} {later : List (Nat × String)} {responder : Responder}
      (noneInHand : pass.inHand = []) (isNext : pass.later = (host, probe) :: later)
      (isResponder : engine.responders[host]? = some responder)
      (breaks : (responder.nextCall probe).answer = .broken) (notBreaking : ¬ pass.IsBreaking)
      (activity : next.activity = .broken due) (probes : next.probes = engine.probes)
      (responders : next.responders = engine.responders.setIfInBounds host (responder.count probe))
      (router : next.router = engine.router)
  | breakOff (isBreaking : pass.IsBreaking) (activity : next.activity = .broken due)
      (probes : next.probes = engine.probes) (responders : next.responders = engine.responders)
      (router : next.router = engine.router)
  | send {host : Nat} {key : String} {amount : Float} {rest : List (Nat × String × Float)}
      {after : Pass} {dispatch : Dispatch Float} (isFirst : pass.inHand = (host, key, amount) :: rest)
      (goesOn : engine.GoesOn next due after) (inHand : after.inHand = rest)
      (laterEq : after.later = pass.later) (breaks_iff : after.IsBreaking ↔ pass.IsBreaking)
      (responders : next.responders = engine.responders)
      (sends : engine.router.dispatch.send? .discovery
        (.feedback ⟨host, engine.router.bucketOf key, amount⟩) = some dispatch)
      (router : next.router = { engine.router with dispatch }) (lower : after.rank < pass.rank)
  | go {after : Pass} (goesOn : engine.GoesOn next due after)
      (inHand : after.inHand = pass.inHand) (laterEq : after.later = pass.later)
      (breaks_iff : after.IsBreaking ↔ pass.IsBreaking)
      (responders : next.responders = engine.responders) (router : next.router = engine.router)
      (lower : after.rank < pass.rank)
  | wait (isBlocked : ¬ engine.IsFree pass) (goesOn : engine.GoesOn next due pass)
      (responders : next.responders = engine.responders)
      (router : next.router = engine.router ∨
        next.router = { engine.router with dispatch := engine.router.dispatch.wait .discovery })

theorem PassMove.probes_eq {engine next : Engine} {due : Nat} {pass : Pass}
    (move : PassMove engine due pass next) : next.probes = engine.probes := by
  cases move with
  | finish _ _ probes => exact probes
  | ask _ _ _ goesOn => exact goesOn.probes_eq
  | askBroken _ _ _ _ _ _ probes => exact probes
  | breakOff _ _ probes => exact probes
  | send _ goesOn => exact goesOn.probes_eq
  | go goesOn => exact goesOn.probes_eq
  | wait _ goesOn => exact goesOn.probes_eq

section Steps

variable {engine : Engine} {due : Nat} {pass : Pass} {host : Nat} {probe : String}
  {rest : List (Nat × String)}

theorem length_heed_le (host : Nat) (reply : Reply) (rest : List (Nat × String)) :
    (heed host reply rest).length ≤ rest.length :=
  (Discovery.heed_suffix ..).length_le

theorem exists_receive (engine : Engine) (due : Nat) {pass : Pass}
    (remaining : pass.remaining = (host, probe) :: rest) (reply : Reply) :
    ∃ after : Pass, engine.GoesOn (engine.receive due pass host probe rest reply) due after ∧
      (engine.receive due pass host probe rest reply).responders = engine.responders ∧
      after.inHand = ((reply.entries probe).map fun entry => (host, entry)) ∧
      after.later = heed host reply rest ∧ ¬ after.IsBreaking ∧
      after.rank < toLex (pass.remaining.length, toLex (1, 0)) := by
  have passedOn : ∀ left : List (Nat × String), left.length ≤ rest.length →
      ({ pass with remaining := left, stage := .asking } : Pass).rank <
        toLex (pass.remaining.length, toLex (1, 0)) := by
    intro left shorter
    rw [remaining]
    exact Pass.rank_lt_of_fewer_probes (Nat.lt_succ_of_le shorter) _ _
  cases reply with
  | miss =>
      refine ⟨_, ⟨rfl, rfl⟩, rfl, ?_, ?_, Pass.not_isBreaking_of_stage (by simp),
        passedOn rest le_rfl⟩
      · simp [Pass.inHand, Reply.entries]
      · simp [Pass.later, heed]
  | failed =>
      refine ⟨_, ⟨rfl, rfl⟩, rfl, ?_, ?_, Pass.not_isBreaking_of_stage (by simp),
        passedOn _ (length_heed_le host .failed rest)⟩
      · simp [Pass.inHand, Reply.entries]
      · simp [Pass.later, heed]
  | body bytes =>
      cases bytes with
      | nil =>
          refine ⟨_, ⟨rfl, rfl⟩, rfl, ?_, ?_, Pass.not_isBreaking_of_stage (by simp),
            passedOn rest le_rfl⟩
          · simp [Pass.inHand]
          · simp [Pass.later, heed]
      | cons byte bytes =>
          refine ⟨_, ⟨rfl, rfl⟩, rfl, ?_, ?_, Pass.not_isBreaking_of_stage (by simp), ?_⟩
          · simp [Pass.inHand, remaining, Reply.entries, entriesOf]
          · simp [Pass.later, remaining, heed]
          · exact Pass.rank_lt_of_later_stage Nat.zero_lt_one _ _

theorem passMove_ask {responder : Responder} (remaining : pass.remaining = (host, probe) :: rest)
    (asking : pass.stage = .asking) (isResponder : engine.responders[host]? = some responder) :
    PassMove engine due pass (engine.ask due pass host probe rest responder).2 := by
  have noneInHand : pass.inHand = [] := by
    simp [Pass.inHand, asking]
  have isNext : pass.later = (host, probe) :: rest := by
    simp [Pass.later, asking, remaining]
  have rankEq : pass.rank = toLex (pass.remaining.length, toLex (2, 0)) := by
    rw [Pass.rank, asking]
  have awaits : toLex (pass.remaining.length, toLex (1, 0)) < pass.rank := by
    rw [rankEq]
    exact Pass.rank_lt_of_later_stage Nat.one_lt_two _ _
  unfold ask Responder.ask
  dsimp only
  split
  · cases answered : (responder.nextCall probe).answer with
    | broken =>
        have notBreaking : ¬ pass.IsBreaking := Pass.not_isBreaking_of_stage (by simp [asking])
        exact .askBroken noneInHand isNext isResponder answered notBreaking rfl rfl rfl rfl
    | replied reply =>
        obtain ⟨after, goesOn, responders, inHand, laterEq, notBreaking, lower⟩ := exists_receive
          { engine with responders := engine.responders.setIfInBounds host (responder.count probe) }
          due remaining reply
        refine .ask noneInHand isNext isResponder ⟨goesOn.activity_eq, goesOn.probes_eq⟩ ?_ ?_ ?_
          responders (router_receive ..) (lower.trans awaits)
        · rw [inHand, answered, Answer.entries]
        · rw [laterEq, answered, leave]
        · simp [answered, notBreaking]
  · refine .ask noneInHand isNext isResponder ⟨rfl, rfl⟩ ?_ ?_ ?_ rfl rfl awaits
    · simp [Pass.inHand, remaining]
    · simp [Pass.later, remaining]
    · simp [Pass.IsBreaking, remaining]

/-- A pass goes on with the reply that it has awaited, or the call has broken off. -/
theorem passMove_hear {time : Nat} {answer : Answer} (remaining : pass.remaining = (host, probe) :: rest)
    (awaiting : pass.stage = .awaiting time answer) :
    PassMove engine due pass (engine.hear due pass host probe rest answer).2 := by
  cases answer with
  | broken => exact .breakOff ⟨by simp [remaining], time, awaiting⟩ rfl rfl rfl rfl
  | replied reply =>
      obtain ⟨after, goesOn, responders, inHand, laterEq, notBreaking, lower⟩ :=
        exists_receive engine due remaining reply
      refine .go goesOn ?_ ?_ ?_ responders (router_receive ..) ?_
      · rw [inHand, Pass.inHand, remaining, awaiting]
        rfl
      · rw [laterEq, Pass.later, remaining, awaiting]
        rfl
      · simpa [Pass.IsBreaking, awaiting] using notBreaking
      · rw [Pass.rank.eq_def pass, awaiting]
        exact lower

theorem passMove_reportEntry {key : String} {amount : Float} {entries : List (String × Float)}
    (isPassing : engine.activity = .passing due pass)
    (remaining : pass.remaining = (host, probe) :: rest)
    (reporting : pass.stage = .reporting ((key, amount) :: entries))
    (finite : amount.isFinite = true) :
    PassMove engine due pass (engine.reportEntry due pass host key amount entries).2 := by
  have isFirst : pass.inHand =
      (host, key, amount) :: entries.map fun entry => (host, entry) := by
    simp [Pass.inHand, remaining, reporting]
  have isReport : engine.router.reportAt host key amount =
      .feedback ⟨host, engine.router.bucketOf key, amount⟩ :=
    if_pos finite
  unfold reportEntry
  rw [isReport]
  dsimp only
  cases sends : engine.router.dispatch.send? .discovery
      (.feedback ⟨host, engine.router.bucketOf key, amount⟩) with
  | some dispatch =>
      refine .send isFirst ⟨rfl, rfl⟩ ?_ ?_ ?_ rfl sends rfl ?_
      · simp [Pass.inHand, remaining]
      · simp [Pass.later, remaining, reporting]
      · simp [Pass.IsBreaking, reporting]
      · rw [Pass.rank, Pass.rank, reporting]
        exact Pass.rank_lt_of_fewer_entries (Nat.lt_succ_self entries.length)
  | none =>
      refine .wait ?_ ⟨?_, rfl⟩ rfl (Or.inr rfl)
      · intro isFree
        simp only [IsFree, reporting] at isFree
        simpa [sends] using isFree (.feedback ⟨host, engine.router.bucketOf key, amount⟩)
      · exact isPassing

/-- Every step of a pass that is ready is one of these. -/
theorem passMove_passStep (isPassing : engine.activity = .passing due pass)
    (ready : engine.IsReady pass) : PassMove engine due pass (engine.passStep due pass).2 := by
  unfold passStep
  cases remaining : pass.remaining with
  | nil =>
      obtain ⟨journal, notedEq⟩ := noteOrders_eq engine
      refine .finish remaining rfl ?_ ?_ ?_
      all_goals simp only [finishPass, note, notedEq]
  | cons next rest =>
      obtain ⟨host, probe⟩ := next
      cases stage : pass.stage with
      | asking =>
          have isNext : pass.later = (host, probe) :: rest := by
            simp [Pass.later, stage, remaining]
          obtain ⟨responder, isResponder⟩ := ready.exists_responder (host, probe) (by simp [isNext])
          simp only [isResponder]
          exact passMove_ask remaining stage isResponder
      | awaiting time answer =>
          by_cases arrived : time ≤ engine.now
          · simp only [if_pos arrived]
            exact passMove_hear remaining stage
          · simp only [if_neg arrived]
            refine .wait ?_ ⟨isPassing, rfl⟩ rfl (Or.inl rfl)
            rw [IsFree, stage]
            exact arrived
      | reporting entries =>
          cases entries with
          | nil =>
              refine .go ⟨rfl, rfl⟩ ?_ ?_ ?_ rfl rfl ?_
              · simp [Pass.inHand, remaining, stage]
              · simp [Pass.later, remaining, stage]
              · simp [Pass.IsBreaking, stage]
              · rw [Pass.rank, Pass.rank, stage, remaining]
                exact Pass.rank_lt_of_fewer_probes (Nat.lt_succ_self rest.length) _ _
          | cons entry entries =>
              obtain ⟨key, amount⟩ := entry
              refine passMove_reportEntry isPassing remaining stage ?_
              exact ready.finite (host, key, amount) (by simp [Pass.inHand, remaining, stage])

end Steps

end Engine

end CacheRouting
