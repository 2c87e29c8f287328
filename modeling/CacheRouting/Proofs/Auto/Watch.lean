import CacheRouting.Proofs.Auto.Delivery
import CacheRouting.Proofs.Auto.Pass

/-!
# Watching a scheduler

Passes start and make their steps, the worker takes messages, the caller hands in
what it has or gives up waiting, and time goes by, in any order.  Whoever watches
sees which hosts are asked what, and who sends what to the worker.
-/

namespace CacheRouting

namespace Engine

/-- One thing that can happen while discovery goes on. -/
inductive Action
  /-- The pass that is due is started. -/
  | start
  /-- The pass that goes on makes a step. -/
  | pass
  /-- The worker takes a message. -/
  | work
  | submit (submission : Submission)
  /-- The caller gives up waiting for room. -/
  | giveUp
  | elapse (time : Nat)

def Action.sender : Action → Sender
  | .pass => .discovery
  | _ => caller

/-- Let one thing happen, if it can. -/
def act (engine : Engine) : Action → Engine
  | .start =>
      match engine.activity with
      | .resting due => if due ≤ engine.now then engine.startPass due else engine
      | _ => engine
  | .pass =>
      match engine.activity with
      | .passing due pass => (engine.passStep due pass).2
      | _ => engine
  | .work => engine.work?.getD engine
  | .submit submission =>
      match engine.messageOf submission with
      | .error event => engine.note event
      | .ok message => (engine.send? message).getD (engine.waitForRoom caller)
  | .giveUp => engine.setDispatch (engine.router.dispatch.forget caller)
  | .elapse time => { engine with now := engine.now + time }

def isPassing (engine : Engine) : Bool :=
  match engine.activity with
  | .passing _ _ => true
  | _ => false

def callsOf (engine : Engine) (host : Nat) : Option Nat :=
  engine.responders[host]?.map (·.calls)

/-- The hosts that have been asked between one state and the next, each with its probe. -/
def askedBetween (engine next : Engine) : List (Nat × String) :=
  (List.range engine.responders.size).flatMap fun host =>
    if next.callsOf host = engine.callsOf host then []
    else ((next.responders[host]?.bind (·.lastProbe)).map fun probe => (host, probe)).toList

def sentBetween (engine next : Engine) : List (Message Float) :=
  next.router.dispatch.mailbox.queue.drop engine.router.dispatch.mailbox.queue.length

theorem askedBetween_of_eq {engine next : Engine} (same : next.responders = engine.responders) :
    engine.askedBetween next = [] := by
  simp [askedBetween, callsOf, same]

/-- A host that is asked is seen to be asked. -/
theorem askedBetween_of_count {engine next : Engine} {host : Nat} {probe : String}
    {responder : Responder} (isResponder : engine.responders[host]? = some responder)
    (asks : next.responders = engine.responders.setIfInBounds host (responder.count probe)) :
    engine.askedBetween next = [(host, probe)] := by
  obtain ⟨known, -⟩ := Array.getElem?_eq_some_iff.mp isResponder
  rw [← Discovery.flatMap_range_single known [(host, probe)], askedBetween]
  apply List.flatMap_congr
  intro other member
  by_cases own : other = host
  · subst own
    have different : next.callsOf other ≠ engine.callsOf other := by
      simp only [callsOf, asks, isResponder, Array.getElem?_setIfInBounds_self_of_lt known,
        Option.map_some, Responder.count]
      simp
    rw [if_neg different, if_pos rfl]
    simp [asks, known, Responder.count]
  · simp [callsOf, asks, own, Array.getElem?_setIfInBounds_ne (Ne.symm own)]

theorem sentBetween_of_router_eq {engine next : Engine} (same : next.router = engine.router) :
    engine.sentBetween next = [] := by
  rw [sentBetween, same, List.drop_length]

theorem sentBetween_of_send? {engine next : Engine} {sender : Sender} {message : Message Float}
    {dispatch : Dispatch Float} (sends : engine.router.dispatch.send? sender message = some dispatch)
    (router : next.router = { engine.router with dispatch }) :
    engine.sentBetween next = [message] := by
  obtain ⟨mailbox, mailboxSends, rfl⟩ := Option.map_eq_some_iff.mp sends
  rw [sentBetween, router, Mailbox.queue_of_send? mailboxSends, List.drop_left]

theorem sentBetween_of_wait {engine next : Engine} {sender : Sender}
    (router : next.router =
      { engine.router with dispatch := engine.router.dispatch.wait sender }) :
    engine.sentBetween next = [] := by
  rw [sentBetween, router, Dispatch.wait, Mailbox.queue_wait, List.drop_length]

theorem sentBetween_of_router_eq_or_wait {engine next : Engine} {sender : Sender}
    (router : next.router = engine.router ∨
      next.router = { engine.router with dispatch := engine.router.dispatch.wait sender }) :
    engine.sentBetween next = [] := by
  rcases router with same | waits
  · exact sentBetween_of_router_eq same
  · exact sentBetween_of_wait waits

end Engine

namespace Dispatch

variable {W : Type} [Weight W]

/-- What an action in which `sender` can send does about messages. -/
inductive Moves (sender : Sender) (dispatch next : Dispatch W) : Prop
  | stays (same : next = dispatch)
  | sends {message : Message W} (sends : dispatch.send? sender message = some next)
  | waits (same : next = dispatch.wait sender)
  | forgets (same : next = dispatch.forget sender)
  | works (works : dispatch.work? = some next)

theorem queue_of_work? {dispatch next : Dispatch W} (works : dispatch.work? = some next) :
    ∃ message mailbox, dispatch.mailbox.take? = some (message, mailbox) ∧
      next.mailbox = mailbox := by
  unfold work? at works
  split at works
  · cases works
  · next message mailbox takes =>
    cases works
    refine ⟨message, mailbox, takes, ?_⟩
    cases message with
    | sync number => rfl
    | feedback item =>
        rw [perform, publishCounted]
        split
        · rw [mailbox_publish]
          rfl
        · rfl

variable {sender : Sender} {dispatch next : Dispatch W}

/-- Whatever happens, the dispatch follows the messages that are seen to be sent. -/
theorem Moves.follows {hostCount bucketCount : Nat} {start : RoutingTable W}
    {sent done : List (Message W)} (moves : Moves sender dispatch next)
    (isEmpty : dispatch.hand = .empty) (covers : start.Covers hostCount bucketCount)
    (follows : Follows start sent done dispatch) :
    next.hand = .empty ∧ ∃ doneNow, Follows start
      (sent ++ next.mailbox.queue.drop dispatch.mailbox.queue.length) doneNow next := by
  cases moves with
  | stays same =>
      subst same
      refine ⟨isEmpty, done, ?_⟩
      rwa [List.drop_length, List.append_nil]
  | sends sends =>
      have followsNext := follows.send? sends
      obtain ⟨mailbox, mailboxSends, rfl⟩ := Option.map_eq_some_iff.mp sends
      refine ⟨isEmpty, done, ?_⟩
      rwa [Mailbox.queue_of_send? mailboxSends, List.drop_left]
  | waits same =>
      subst same
      refine ⟨isEmpty, done, ?_⟩
      rw [Dispatch.wait, Mailbox.queue_wait, List.drop_length, List.append_nil]
      exact follows.wait sender
  | forgets same =>
      subst same
      refine ⟨isEmpty, done, ?_⟩
      rw [Dispatch.forget, Mailbox.forget, List.drop_length, List.append_nil]
      exact follows.forget sender
  | works works =>
      obtain ⟨message, mailbox, takes, mailboxEq⟩ := queue_of_work? works
      obtain ⟨nextEmpty, steps, ran⟩ := run?_of_work? isEmpty works
      obtain ⟨doneNow, -, followsNow⟩ := follows.run? covers ran
      refine ⟨nextEmpty, doneNow, ?_⟩
      have noneSent : next.mailbox.queue.drop dispatch.mailbox.queue.length = [] := by
        rw [List.drop_eq_nil_iff, Mailbox.queue_of_take? takes, mailboxEq]
        exact Nat.le_succ _
      have noneAsked : Dispatch.sent (List.replicate steps (.work : Action W)) = [] := by
        rw [Dispatch.sent, List.filterMap_replicate]
      rw [noneSent]
      rwa [noneAsked] at followsNow

theorem Moves.isBounded {capacity : Nat} (moves : Moves sender dispatch next)
    (bounded : dispatch.mailbox.IsBounded capacity) : next.mailbox.IsBounded capacity := by
  cases moves with
  | stays same => exact same ▸ bounded
  | sends sends =>
      obtain ⟨mailbox, mailboxSends, rfl⟩ := Option.map_eq_some_iff.mp sends
      exact bounded.send? mailboxSends
  | waits same => exact same ▸ bounded.wait sender
  | forgets same => exact same ▸ bounded.forget sender
  | works works =>
      obtain ⟨message, mailbox, takes, mailboxEq⟩ := queue_of_work? works
      exact mailboxEq ▸ bounded.take? takes

/-- Only the sender itself can join those that wait for room. -/
theorem Moves.eq_or_mem_of_mem_senders (moves : Moves sender dispatch next) {other : Sender}
    (member : other ∈ next.mailbox.senders) :
    other = sender ∨ other ∈ dispatch.mailbox.senders := by
  cases moves with
  | stays same => exact Or.inr (same ▸ member)
  | sends sends =>
      obtain ⟨mailbox, mailboxSends, rfl⟩ := Option.map_eq_some_iff.mp sends
      exact Or.inr (Mailbox.senders_send?_subset mailboxSends member)
  | waits same =>
      subst same
      exact Mailbox.eq_or_mem_of_mem_senders_wait member
  | forgets same =>
      subst same
      exact Or.inr (Mailbox.mem_senders_forget.mp member).1
  | works works =>
      obtain ⟨message, mailbox, takes, mailboxEq⟩ := queue_of_work? works
      exact Or.inr (Mailbox.senders_take?_subset takes (mailboxEq ▸ member))

end Dispatch

namespace Engine

/-- From one engine to the next a sender has done something about its messages, and nothing
else about the router has changed. -/
structure Serves (sender : Sender) (engine next : Engine) : Prop where
  router_eq : next.router = { engine.router with dispatch := next.router.dispatch }
  moves : Dispatch.Moves sender engine.router.dispatch next.router.dispatch

theorem serves_of_router_eq {sender : Sender} {engine next : Engine}
    (same : next.router = engine.router) : Serves sender engine next :=
  ⟨by rw [same], .stays (by rw [same])⟩

theorem PassMove.serves {engine next : Engine} {due : Nat} {pass : Pass}
    (move : PassMove engine due pass next) : Serves .discovery engine next := by
  cases move with
  | finish _ _ _ _ router => exact serves_of_router_eq router
  | ask _ _ _ _ _ _ _ _ router => exact serves_of_router_eq router
  | askBroken _ _ _ _ _ _ _ _ router => exact serves_of_router_eq router
  | breakOff _ _ _ _ router => exact serves_of_router_eq router
  | send _ _ _ _ _ _ sends router => exact ⟨by rw [router], by rw [router]; exact .sends sends⟩
  | go _ _ _ _ _ router => exact serves_of_router_eq router
  | wait _ _ _ router =>
      rcases router with same | waits
      · exact serves_of_router_eq same
      · exact ⟨by rw [waits], by rw [waits]; exact .waits rfl⟩

/-- An action other than a step of a pass leaves the hosts alone. -/
structure LeavesHosts (engine next : Engine) : Prop where
  responders_eq : next.responders = engine.responders
  probes_eq : next.probes = engine.probes
  serves : Serves caller engine next

theorem leavesHosts_setDispatch {engine : Engine} {dispatch : Dispatch Float}
    (moves : Dispatch.Moves caller engine.router.dispatch dispatch) :
    LeavesHosts engine (engine.setDispatch dispatch) :=
  ⟨rfl, rfl, rfl, moves⟩

theorem leavesHosts_of_router_eq {engine next : Engine}
    (responders : next.responders = engine.responders) (probes : next.probes = engine.probes)
    (router : next.router = engine.router) : LeavesHosts engine next :=
  ⟨responders, probes, serves_of_router_eq router⟩

theorem leavesHosts_act (engine : Engine) {action : Action} (notPass : action ≠ .pass) :
    LeavesHosts engine (engine.act action) := by
  cases action with
  | start =>
      dsimp only [act]
      split
      · split <;> exact leavesHosts_of_router_eq rfl rfl rfl
      · exact leavesHosts_of_router_eq rfl rfl rfl
  | pass => exact absurd rfl notPass
  | work =>
      cases works : engine.router.dispatch.work? with
      | none =>
          have stays : engine.act .work = engine := by simp [act, work?, works]
          rw [stays]
          exact leavesHosts_of_router_eq rfl rfl rfl
      | some dispatch =>
          have next : engine.act .work = engine.setDispatch dispatch := by simp [act, work?, works]
          rw [next]
          exact leavesHosts_setDispatch (.works works)
  | submit submission =>
      dsimp only [act]
      split
      · exact leavesHosts_of_router_eq rfl rfl rfl
      · next message isMessage =>
        cases sends : engine.router.dispatch.send? caller message with
        | none =>
            simp only [send?, sends, Option.map_none, Option.getD_none]
            exact leavesHosts_setDispatch (.waits rfl)
        | some dispatch =>
            simp only [send?, sends, Option.map_some, Option.getD_some]
            exact leavesHosts_setDispatch (.sends sends)
  | giveUp => exact leavesHosts_setDispatch (.forgets rfl)
  | elapse time => exact leavesHosts_of_router_eq rfl rfl rfl

def Action.isOutside : Action → Bool
  | .start => false
  | .pass => false
  | _ => true

theorem activity_act_of_isOutside (engine : Engine) {action : Action}
    (outside : action.isOutside = true) : (engine.act action).activity = engine.activity := by
  cases action with
  | start => cases outside
  | pass => cases outside
  | work =>
      dsimp only [act, work?]
      cases engine.router.dispatch.work? <;> rfl
  | submit submission =>
      dsimp only [act]
      split
      · rfl
      · next message isMessage =>
        unfold send?
        cases engine.router.dispatch.send? caller message <;> rfl
  | giveUp => rfl
  | elapse time => rfl

end Engine

structure Watch where
  engine : Engine
  /-- The hosts that have been asked, each with its probe. -/
  asked : List (Nat × String)
  /-- The messages that have been sent, each with its sender. -/
  log : List (Sender × Message Float)
  /-- How many passes have come to their end. -/
  passes : Nat

namespace Watch

open Engine (Action)

def start (engine : Engine) : Watch := ⟨engine, [], [], 0⟩

def act (watch : Watch) (action : Action) : Watch where
  engine := watch.engine.act action
  asked := watch.asked ++ watch.engine.askedBetween (watch.engine.act action)
  log := watch.log ++ (watch.engine.sentBetween (watch.engine.act action)).map fun message =>
    (action.sender, message)
  passes :=
    if watch.engine.isPassing && !(watch.engine.act action).isPassing then watch.passes + 1
    else watch.passes

def run (watch : Watch) (actions : List Action) : Watch :=
  actions.foldl act watch

def sentBy (watch : Watch) (sender : Sender) : List (Message Float) :=
  (watch.log.filter fun entry => entry.1 == sender).map (·.2)

def sent (watch : Watch) : List (Message Float) :=
  watch.log.map (·.2)

theorem run_append (watch : Watch) (first second : List Action) :
    watch.run (first ++ second) = (watch.run first).run second :=
  List.foldl_append

theorem sentBy_act (watch : Watch) (action : Action) (sender : Sender) :
    (watch.act action).sentBy sender = watch.sentBy sender ++
      if action.sender = sender then watch.engine.sentBetween (watch.engine.act action) else [] := by
  rw [sentBy, act, List.filter_append, List.map_append, ← sentBy]
  congr 1
  by_cases own : action.sender = sender
  · simp [own, List.filter_map, Function.comp_def]
  · simp [own, List.filter_map, Function.comp_def]

theorem sent_act (watch : Watch) (action : Action) :
    (watch.act action).sent =
      watch.sent ++ watch.engine.sentBetween (watch.engine.act action) := by
  simp [sent, act, Function.comp_def]

theorem passes_act_of_eq {watch : Watch} {action : Action}
    (same : (watch.engine.act action).activity = watch.engine.activity) :
    (watch.act action).passes = watch.passes := by
  have samePassing : (watch.engine.act action).isPassing = watch.engine.isPassing := by
    rw [Engine.isPassing, Engine.isPassing, same]
  simp [act, samePassing]

theorem asked_act_of_eq {watch : Watch} {action : Action}
    (same : (watch.engine.act action).responders = watch.engine.responders) :
    (watch.act action).asked = watch.asked := by
  rw [act, Engine.askedBetween_of_eq same, List.append_nil]

theorem reported_act_pass {watch : Watch} {messages : List (Message Float)}
    (sent : watch.engine.sentBetween (watch.engine.act .pass) = messages) :
    (watch.act .pass).sentBy .discovery = watch.sentBy .discovery ++ messages := by
  rw [sentBy_act, sent]
  simp [Action.sender]

/-- The messages seen are on their way through a scheduler that serves one caller and
discovery. -/
structure IsServed (router : AutoRouter Float) (watch : Watch) : Prop where
  router_eq : watch.engine.router = { router with dispatch := watch.engine.router.dispatch }
  probes_eq : watch.engine.probes = Listing.probeKeys router.bucketCount
  hand_eq : watch.engine.router.dispatch.hand = .empty
  follows : ∃ done, Dispatch.Follows
    (RoutingTable.initial router.hosts.length router.bucketCount) watch.sent done
    watch.engine.router.dispatch
  isBounded : ∃ capacity, 0 < capacity ∧ watch.engine.router.dispatch.mailbox.IsBounded capacity
  senders : ∀ sender ∈ watch.engine.router.dispatch.mailbox.senders,
    sender = Engine.caller ∨ sender = .discovery

theorem IsServed.act {router : AutoRouter Float} {watch : Watch} (served : watch.IsServed router)
    {action : Action} (probes : (watch.engine.act action).probes = watch.engine.probes)
    (serves : Engine.Serves action.sender watch.engine (watch.engine.act action)) :
    (watch.act action).IsServed router := by
  have sender : action.sender = Engine.caller ∨ action.sender = .discovery := by
    cases action <;> simp [Action.sender]
  obtain ⟨done, follows⟩ := served.follows
  obtain ⟨capacity, positive, bounded⟩ := served.isBounded
  obtain ⟨handEq, doneNow, followsNow⟩ := serves.moves.follows served.hand_eq
    (RoutingTable.covers_initial router.hosts.length router.bucketCount) follows
  refine ⟨?_, probes.trans served.probes_eq, handEq, ⟨doneNow, ?_⟩,
    ⟨capacity, positive, serves.moves.isBounded bounded⟩, ?_⟩
  · change (watch.engine.act action).router = _
    rw [serves.router_eq, served.router_eq]
    rfl
  · rw [sent_act]
    exact followsNow
  · intro other member
    rcases serves.moves.eq_or_mem_of_mem_senders member with rfl | waited
    · exact sender
    · exact served.senders other waited

/-- Actions outside of passes keep the activity. -/
theorem IsServed.run_of_isOutside {router : AutoRouter Float} {watch : Watch}
    (served : watch.IsServed router) {actions : List Action}
    (outside : ∀ action ∈ actions, action.isOutside = true) :
    (watch.run actions).IsServed router ∧
      (watch.run actions).engine.activity = watch.engine.activity ∧
      (watch.run actions).passes = watch.passes := by
  induction actions generalizing watch with
  | nil => exact ⟨served, rfl, rfl⟩
  | cons action actions ih =>
      obtain ⟨isOutside, restOutside⟩ := List.forall_mem_cons.mp outside
      have notPass : action ≠ .pass := by
        rintro rfl
        cases isOutside
      have leaves := Engine.leavesHosts_act watch.engine notPass
      have senderEq : action.sender = Engine.caller := by
        cases action <;> first | rfl | exact absurd rfl notPass
      obtain ⟨servedNow, activity, passes⟩ :=
        ih (served.act leaves.probes_eq (senderEq ▸ leaves.serves)) restOutside
      have sameActivity := Engine.activity_act_of_isOutside watch.engine isOutside
      exact ⟨servedNow, activity.trans sameActivity, passes.trans (passes_act_of_eq sameActivity)⟩

/-- When nobody else has a place or waits for one, the worker makes room for discovery. -/
theorem IsServed.exists_room_of_senders {router : AutoRouter Float} {watch : Watch}
    (served : watch.IsServed router)
    (own : ∀ sender ∈ watch.engine.router.dispatch.mailbox.senders, sender = .discovery) :
    ∃ steps, ∀ message, ((watch.run (List.replicate steps .work)).engine.router.dispatch.send?
      .discovery message).isSome = true := by
  induction queued : watch.engine.router.dispatch.mailbox.queue.length generalizing watch with
  | zero =>
      obtain ⟨capacity, positive, bounded⟩ := served.isBounded
      refine ⟨0, fun message => ?_⟩
      rw [Dispatch.send?, Option.isSome_map]
      exact Mailbox.isSome_send?_of_queue_eq_nil bounded positive (List.length_eq_zero_iff.mp queued)
        own message
  | succ count ih =>
      obtain ⟨dispatch, works⟩ : ∃ dispatch, watch.engine.router.dispatch.work? = some dispatch := by
        cases takes : watch.engine.router.dispatch.mailbox.take? with
        | none =>
            rw [Mailbox.take?_eq_none_iff.mp takes] at queued
            cases queued
        | some taken =>
            rw [Dispatch.work?, takes]
            exact ⟨_, rfl⟩
      have nextEq : (watch.act .work).engine = watch.engine.setDispatch dispatch := by
        simp [Watch.act, Engine.act, Engine.work?, works]
      obtain ⟨message, mailbox, takes, mailboxEq⟩ := Dispatch.queue_of_work? works
      have queueEq := congrArg List.length (Mailbox.queue_of_take? takes)
      have leaves := Engine.leavesHosts_act watch.engine (by simp : Action.work ≠ .pass)
      have ownNext : ∀ sender ∈ (watch.act .work).engine.router.dispatch.mailbox.senders,
          sender = .discovery := by
        intro sender member
        rw [nextEq] at member
        exact own sender (Mailbox.senders_take?_subset takes (mailboxEq ▸ member))
      have fewer : (watch.act .work).engine.router.dispatch.mailbox.queue.length = count := by
        rw [nextEq]
        change dispatch.mailbox.queue.length = count
        rw [queued, List.length_cons] at queueEq
        rw [mailboxEq]
        omega
      obtain ⟨steps, room⟩ := ih (served.act leaves.probes_eq leaves.serves) ownNext fewer
      exact ⟨steps + 1, room⟩

/-- The next step of a pass need not wait for ever: once the caller has given up, the worker
has taken all messages, or some time has gone by, it is free. -/
theorem IsServed.exists_isFree {router : AutoRouter Float} {watch : Watch}
    (served : watch.IsServed router) (pass : Pass) :
    ∃ actions, (∀ action ∈ actions, action.isOutside = true) ∧
      (watch.run actions).engine.IsFree pass := by
  cases stage : pass.stage with
  | asking =>
      refine ⟨[], by simp, ?_⟩
      simp only [Engine.IsFree, stage]
  | awaiting time reply =>
      refine ⟨[.elapse time], by simp [Action.isOutside], ?_⟩
      simp only [Engine.IsFree, stage]
      exact Nat.le_add_left ..
  | reporting entries =>
      cases entries with
      | nil =>
          refine ⟨[], by simp, ?_⟩
          simp only [Engine.IsFree, stage]
      | cons entry entries =>
          have leaves := Engine.leavesHosts_act watch.engine (by simp : Action.giveUp ≠ .pass)
          have own : ∀ sender ∈ (watch.act .giveUp).engine.router.dispatch.mailbox.senders,
              sender = .discovery := by
            intro sender member
            obtain ⟨waited, notCaller⟩ := Mailbox.mem_senders_forget.mp member
            exact (served.senders sender waited).resolve_left notCaller
          obtain ⟨steps, room⟩ :=
            (served.act leaves.probes_eq leaves.serves).exists_room_of_senders own
          refine ⟨.giveUp :: List.replicate steps .work, ?_, ?_⟩
          · intro action member
            rcases List.mem_cons.mp member with rfl | works
            · rfl
            · exact (List.eq_of_mem_replicate works).symm ▸ rfl
          · simp only [Engine.IsFree, stage]
            exact room

end Watch

end CacheRouting
