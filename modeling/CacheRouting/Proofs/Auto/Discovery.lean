import CacheRouting.Proofs.Auto.Watch
import CacheRouting.Proofs.Ranking.Interleaving

/-!
# What passes report

While a pass goes on, what has been asked and what will be asked together are the
probes of that pass; and what has been reported, what the pass has in hand and what
will be listed together are its reports.  Each step moves something from the
future into the past, whatever the worker and the caller do in between.
-/

namespace CacheRouting

namespace Responder

theorem brokenCalls_afterPasses (responder : Responder) (probes : List String) (passes : Nat) :
    (responder.afterPasses probes passes).brokenCalls = responder.brokenCalls := by
  have counts : ∀ (asked : List String) (responder : Responder),
      (asked.foldl count responder).brokenCalls = responder.brokenCalls := by
    intro asked
    induction asked with
    | nil => exact fun responder => rfl
    | cons probe asked ih => exact fun responder => ih (responder.count probe)
  induction passes with
  | zero => rfl
  | succ passes ih => rw [afterPasses, counts, ih]

end Responder

namespace Discovery

def reportOf (router : AutoRouter Float) (entry : Nat × String × Float) : Message Float :=
  .feedback ⟨entry.1, router.bucketOf entry.2.1, entry.2.2⟩

section Totals

variable (script : Nat → Responder) (hostCount : Nat) (probes : List String)

/-- What hosts are asked in a pass, counted from zero. -/
def askedInPass (pass : Nat) : List (Nat × String) :=
  (List.range hostCount).flatMap fun host =>
    (((script host).afterPasses probes pass).askedIn probes).map fun probe => (host, probe)

/-- What hosts list in a pass, counted from zero. -/
def listedInPass (pass : Nat) : List (Nat × String × Float) :=
  (List.range hostCount).flatMap fun host =>
    (((script host).afterPasses probes pass).listedIn probes).map fun entry => (host, entry)

def askedInPasses (passes : Nat) : List (Nat × String) :=
  (List.range passes).flatMap (askedInPass script hostCount probes)

def listedInPasses (passes : Nat) : List (Nat × String × Float) :=
  (List.range passes).flatMap (listedInPass script hostCount probes)

theorem askedInPasses_succ (passes : Nat) :
    askedInPasses script hostCount probes (passes + 1) =
      askedInPasses script hostCount probes passes ++ askedInPass script hostCount probes passes := by
  rw [askedInPasses, List.range_succ, List.flatMap_append, List.flatMap_singleton, askedInPasses]

theorem listedInPasses_succ (passes : Nat) :
    listedInPasses script hostCount probes (passes + 1) =
      listedInPasses script hostCount probes passes ++
        listedInPass script hostCount probes passes := by
  rw [listedInPasses, List.range_succ, List.flatMap_append, List.flatMap_singleton, listedInPasses]

variable {hostCount} {host : Nat} (known : host < hostCount)

include known

/-- What a host is asked depends on its own replies. -/
theorem filter_askedInPasses (passes : Nat) :
    (askedInPasses script hostCount probes passes).filter (fun next => next.1 == host) =
      (List.range passes).flatMap fun pass =>
        (((script host).afterPasses probes pass).askedIn probes).map fun probe => (host, probe) := by
  rw [askedInPasses, List.filter_flatMap]
  apply List.flatMap_congr
  intro pass _
  exact filter_flatMap_host known _

/-- What a host lists depends on its own replies. -/
theorem filter_listedInPasses (passes : Nat) :
    (listedInPasses script hostCount probes passes).filter (fun entry => entry.1 == host) =
      (List.range passes).flatMap fun pass =>
        (((script host).afterPasses probes pass).listedIn probes).map fun entry => (host, entry) := by
  rw [listedInPasses, List.filter_flatMap]
  apply List.flatMap_congr
  intro pass _
  exact filter_flatMap_host known _

end Totals

end Discovery

namespace Watch

open Discovery
open Engine (Action PassMove)

section Course

variable (script : Nat → Responder) (router : AutoRouter Float)

/-- Between passes everything has been asked and reported. -/
structure AtRest (watch : Watch) : Prop where
  hosts : ∀ host < router.hosts.length, watch.engine.responders[host]? =
    some ((script host).afterPasses (Listing.probeKeys router.bucketCount) watch.passes)
  asked : watch.asked = askedInPasses script router.hosts.length
    (Listing.probeKeys router.bucketCount) watch.passes
  reported : watch.sentBy .discovery = (listedInPasses script router.hosts.length
    (Listing.probeKeys router.bucketCount) watch.passes).map (reportOf router)

/-- Within a pass, what is still to be asked and reported is what the pass makes of the replies
that the hosts have ready. -/
structure InPass (watch : Watch) (pass : Pass) (current : Nat → Responder) : Prop where
  hosts : ∀ host < router.hosts.length, watch.engine.responders[host]? = some (current host)
  unbroken : ∀ host < router.hosts.length, (current host).brokenCalls = []
  notBreaking : ¬ pass.IsBreaking
  nodup : pass.later.Nodup
  known : ∀ next ∈ pass.later, next.1 < router.hosts.length
  finite : ∀ entry ∈ pass.inHand, entry.2.2.isFinite = true
  asked : watch.asked ++ Discovery.asked current pass.later =
    askedInPasses script router.hosts.length (Listing.probeKeys router.bucketCount)
      (watch.passes + 1)
  reported : watch.sentBy .discovery ++
      (pass.inHand ++ listed current (Discovery.asked current pass.later)).map (reportOf router) =
    (listedInPasses script router.hosts.length (Listing.probeKeys router.bucketCount)
      (watch.passes + 1)).map (reportOf router)
  leads : ∀ host < router.hosts.length,
    afterAsking current (Discovery.asked current pass.later) host =
      (script host).afterPasses (Listing.probeKeys router.bucketCount) (watch.passes + 1)

/-- Where the watched scheduler stands, given whether it discovers at all. -/
inductive OnCourse (discovers : Bool) (watch : Watch) : Prop
  | off (noDiscovery : discovers = false) (activity : watch.engine.activity = .off)
      (atRest : watch.AtRest script router)
  | resting {due : Nat} (activity : watch.engine.activity = .resting due)
      (atRest : watch.AtRest script router)
  | passing {due : Nat} {pass : Pass} {current : Nat → Responder}
      (activity : watch.engine.activity = .passing due pass)
      (inPass : watch.InPass script router pass current)

end Course

section Steps

variable {script : Nat → Responder} {router : AutoRouter Float} {discovers : Bool}
  {watch next : Watch} {pass after : Pass} {current : Nat → Responder}

structure Keeps (watch next : Watch) : Prop where
  responders_eq : next.engine.responders = watch.engine.responders
  asked_eq : next.asked = watch.asked
  reported_eq : next.sentBy .discovery = watch.sentBy .discovery
  passes_eq : next.passes = watch.passes

theorem AtRest.of_keeps (atRest : watch.AtRest script router) (keeps : watch.Keeps next) :
    next.AtRest script router where
  hosts := by rw [keeps.responders_eq, keeps.passes_eq]; exact atRest.hosts
  asked := by rw [keeps.asked_eq, keeps.passes_eq]; exact atRest.asked
  reported := by rw [keeps.reported_eq, keeps.passes_eq]; exact atRest.reported

/-- A pass goes on as long as what it has in hand and its later probes stay the same. -/
theorem InPass.of_keeps (inPass : watch.InPass script router pass current)
    (inHand : after.inHand = pass.inHand) (later : after.later = pass.later)
    (breaks_iff : after.IsBreaking ↔ pass.IsBreaking) (keeps : watch.Keeps next) :
    next.InPass script router after current where
  hosts := by rw [keeps.responders_eq]; exact inPass.hosts
  unbroken := inPass.unbroken
  notBreaking := breaks_iff.not.mpr inPass.notBreaking
  nodup := by rw [later]; exact inPass.nodup
  known := by rw [later]; exact inPass.known
  finite := by rw [inHand]; exact inPass.finite
  asked := by rw [keeps.asked_eq, keeps.passes_eq, later]; exact inPass.asked
  reported := by rw [keeps.reported_eq, keeps.passes_eq, inHand, later]; exact inPass.reported
  leads := by rw [keeps.passes_eq, later]; exact inPass.leads

/-- A pass starts with all its probes before it. -/
theorem AtRest.startPass (atRest : watch.AtRest script router)
    (unbroken : ∀ host < router.hosts.length, (script host).brokenCalls = [])
    (inHand : after.inHand = [])
    (later : after.later = planOf router.hosts.length (Listing.probeKeys router.bucketCount))
    (notBreaking : ¬ after.IsBreaking) (keeps : watch.Keeps next) :
    next.InPass script router after fun host =>
      (script host).afterPasses (Listing.probeKeys router.bucketCount) watch.passes where
  hosts := by rw [keeps.responders_eq]; exact atRest.hosts
  unbroken := by
    intro host known
    rw [Responder.brokenCalls_afterPasses]
    exact unbroken host known
  notBreaking := notBreaking
  nodup := by
    rw [later]
    exact nodup_planOf router.hosts.length (Listing.nodup_probeKeys router.bucketCount)
  known := by
    rw [later]
    exact fun next member => lt_of_mem_planOf member
  finite := by simp [inHand]
  asked := by
    rw [keeps.asked_eq, keeps.passes_eq, later, askedInPasses_succ, atRest.asked, asked_planOf]
    rfl
  reported := by
    rw [keeps.reported_eq, keeps.passes_eq, inHand, later, listedInPasses_succ, atRest.reported,
      List.nil_append, listed_asked_planOf, ← List.map_append]
    rfl
  leads := by
    intro host known
    rw [keeps.passes_eq, later, afterAsking_asked_planOf _ known]
    rfl

theorem InPass.ask (inPass : watch.InPass script router pass current) {host : Nat} {probe : String}
    {later : List (Nat × String)} (noneInHand : pass.inHand = [])
    (isNext : pass.later = (host, probe) :: later)
    (inHand : after.inHand =
      (((current host).replyTo probe).entries probe).map fun entry => (host, entry))
    (laterEq : after.later = heed host ((current host).replyTo probe) later)
    (notBreaking : ¬ after.IsBreaking)
    (responders : next.engine.responders =
      watch.engine.responders.setIfInBounds host ((current host).count probe))
    (asked : next.asked = watch.asked ++ [(host, probe)])
    (reported : next.sentBy .discovery = watch.sentBy .discovery)
    (passes : next.passes = watch.passes) :
    next.InPass script router after (afterAsking current [(host, probe)]) := by
  have nodup := inPass.nodup
  rw [isNext] at nodup
  have hostKnown : host < router.hosts.length := inPass.known (host, probe) (by simp [isNext])
  have askedEq := inPass.asked
  rw [isNext, asked_step current nodup] at askedEq
  have suffix : after.later <:+ later := laterEq ▸ heed_suffix host _ later
  constructor
  case hosts =>
    intro other known
    rw [responders]
    by_cases own : other = host
    · subst own
      obtain ⟨inBounds, -⟩ := Array.getElem?_eq_some_iff.mp (inPass.hosts other known)
      simp [afterAsking, inBounds]
    · rw [Array.getElem?_setIfInBounds_ne (Ne.symm own), inPass.hosts other known]
      simp [afterAsking, own]
  case unbroken =>
    intro other known
    by_cases own : other = host
    · subst own
      simpa [afterAsking, Responder.count] using inPass.unbroken other known
    · simpa [afterAsking, own] using inPass.unbroken other known
  case notBreaking => exact notBreaking
  case nodup =>
    exact (List.nodup_cons.mp nodup).2.sublist suffix.sublist
  case known =>
    intro next member
    exact inPass.known next (isNext ▸ List.mem_cons_of_mem _ (suffix.subset member))
  case finite =>
    intro entry member
    rw [inHand] at member
    obtain ⟨listed, isListed, rfl⟩ := List.mem_map.mp member
    exact Reply.isFinite_of_mem_entries isListed
  case asked =>
    rw [asked, passes, laterEq, List.append_assoc]
    exact askedEq
  case reported =>
    have reportedEq := inPass.reported
    rw [isNext, noneInHand, listed_step current nodup] at reportedEq
    rw [reported, passes, inHand, laterEq]
    exact reportedEq
  case leads =>
    intro other known
    rw [passes, laterEq, ← inPass.leads other known, isNext, asked_step current nodup]
    rfl

theorem InPass.send (inPass : watch.InPass script router pass current)
    {entry : Nat × String × Float} {rest : List (Nat × String × Float)}
    (isFirst : pass.inHand = entry :: rest) (inHand : after.inHand = rest)
    (later : after.later = pass.later) (breaks_iff : after.IsBreaking ↔ pass.IsBreaking)
    (responders : next.engine.responders = watch.engine.responders)
    (asked : next.asked = watch.asked)
    (reported : next.sentBy .discovery = watch.sentBy .discovery ++ [reportOf router entry])
    (passes : next.passes = watch.passes) : next.InPass script router after current where
  hosts := by rw [responders]; exact inPass.hosts
  unbroken := inPass.unbroken
  notBreaking := breaks_iff.not.mpr inPass.notBreaking
  nodup := by rw [later]; exact inPass.nodup
  known := by rw [later]; exact inPass.known
  finite := by
    intro other member
    exact inPass.finite other (by rw [isFirst, ← inHand]; exact List.mem_cons_of_mem _ member)
  asked := by rw [asked, passes, later]; exact inPass.asked
  reported := by
    have reportedEq := inPass.reported
    rw [isFirst] at reportedEq
    rw [reported, passes, inHand, later, List.append_assoc]
    exact reportedEq
  leads := by rw [passes, later]; exact inPass.leads

theorem InPass.finish (inPass : watch.InPass script router pass current)
    (noneLeft : pass.remaining = [])
    (responders : next.engine.responders = watch.engine.responders)
    (asked : next.asked = watch.asked)
    (reported : next.sentBy .discovery = watch.sentBy .discovery)
    (passes : next.passes = watch.passes + 1) : next.AtRest script router := by
  have inHand : pass.inHand = [] := by simp [Pass.inHand, noneLeft]
  have later : pass.later = [] := by simp [Pass.later, noneLeft]
  have noneAsked : Discovery.asked current pass.later = [] := by rw [later, Discovery.asked]
  constructor
  case hosts =>
    intro host known
    rw [responders, passes, inPass.hosts host known, ← inPass.leads host known, noneAsked]
    rfl
  case asked => rw [asked, passes, ← inPass.asked, noneAsked, List.append_nil]
  case reported =>
    rw [reported, passes, ← inPass.reported, noneAsked, inHand]
    simp [listed]

theorem InPass.isReady (inPass : watch.InPass script router pass current) :
    watch.engine.IsReady pass where
  exists_responder := by
    intro next member
    exact ⟨current next.1, inPass.hosts next.1 (inPass.known next member)⟩
  finite := inPass.finite

/-- The host that is asked next replies. -/
theorem InPass.answer_eq (inPass : watch.InPass script router pass current) {host : Nat}
    {probe : String} {later : List (Nat × String)} {responder : Responder}
    (isNext : pass.later = (host, probe) :: later)
    (isResponder : watch.engine.responders[host]? = some responder) :
    responder = current host ∧
      (responder.nextCall probe).answer = .replied ((current host).replyTo probe) := by
  have known := inPass.known (host, probe) (by simp [isNext])
  have responderEq := Option.some.inj (isResponder.symm.trans (inPass.hosts host known))
  subst responderEq
  exact ⟨rfl, Responder.nextCall_of_unbroken (inPass.unbroken host known) probe⟩

theorem IsServed.bucketOf_eq (served : watch.IsServed router) (key : String) :
    watch.engine.router.bucketOf key = router.bucketOf key := by
  rw [served.router_eq]
  rfl

/-- A step of a pass completes it, or brings it nearer to its end, or waits. -/
theorem InPass.act (inPass : watch.InPass script router pass current)
    (served : watch.IsServed router) {due : Nat}
    (activity : watch.engine.activity = .passing due pass) :
    (watch.act .pass).IsServed router ∧
      (((watch.act .pass).engine.activity = .resting due ∧
          (watch.act .pass).passes = watch.passes + 1 ∧
          (watch.act .pass).AtRest script router) ∨
        ∃ after current, (watch.act .pass).engine.activity = .passing due after ∧
          (watch.act .pass).passes = watch.passes ∧
          (watch.act .pass).InPass script router after current ∧
          (after.rank < pass.rank ∨ ¬ watch.engine.IsFree pass)) := by
  have move := Engine.passMove_passStep activity inPass.isReady
  have stepEq : (watch.engine.passStep due pass).2 = watch.engine.act .pass := by
    rw [Engine.act, activity]
  rw [stepEq] at move
  have goesOn {after : Pass} (goes : watch.engine.GoesOn (watch.engine.act .pass) due after) :
      (watch.act .pass).passes = watch.passes := by
    simp [Watch.act, Engine.isPassing, activity, goes.activity_eq]
  have sendsNone (sent : watch.engine.sentBetween (watch.engine.act .pass) = []) :
      (watch.act .pass).sentBy .discovery = watch.sentBy .discovery := by
    rw [reported_act_pass sent, List.append_nil]
  refine ⟨served.act move.probes_eq move.serves, ?_⟩
  cases move with
  | finish noneLeft rests _ responders routerEq =>
      have passes : (watch.act .pass).passes = watch.passes + 1 := by
        simp [Watch.act, Engine.isPassing, activity, rests]
      exact Or.inl ⟨rests, passes, inPass.finish noneLeft responders (asked_act_of_eq responders)
        (sendsNone (Engine.sentBetween_of_router_eq routerEq)) passes⟩
  | @ask host probe later responder after noneInHand isNext isResponder goes inHand laterEq breaks_iff
      responders routerEq lower =>
      obtain ⟨rfl, answerEq⟩ := inPass.answer_eq isNext isResponder
      rw [answerEq] at inHand laterEq breaks_iff
      have notBreaking : ¬ after.IsBreaking := by simp [breaks_iff]
      have asked : (watch.act .pass).asked = watch.asked ++ [(host, probe)] := by
        rw [Watch.act, Engine.askedBetween_of_count isResponder responders]
      exact Or.inr ⟨after, _, goes.activity_eq, goesOn goes, inPass.ask noneInHand isNext inHand laterEq
        notBreaking responders asked (sendsNone (Engine.sentBetween_of_router_eq routerEq)) (goesOn goes),
        Or.inl lower⟩
  | askBroken noneInHand isNext isResponder breaks =>
      rw [(inPass.answer_eq isNext isResponder).2] at breaks
      cases breaks
  | breakOff isBreaking => exact absurd isBreaking inPass.notBreaking
  | @send host key amount rest after dispatch isFirst goes inHand laterEq breaks_iff responders isSent
      routerEq lower =>
      have reported : (watch.act .pass).sentBy .discovery =
          watch.sentBy .discovery ++ [reportOf router (host, key, amount)] := by
        rw [reported_act_pass (Engine.sentBetween_of_send? isSent routerEq), served.bucketOf_eq]
        rfl
      exact Or.inr ⟨after, current, goes.activity_eq, goesOn goes,
        inPass.send isFirst inHand laterEq breaks_iff responders (asked_act_of_eq responders) reported
          (goesOn goes), Or.inl lower⟩
  | @go after goes inHand laterEq breaks_iff responders routerEq lower =>
      have keeps : watch.Keeps (watch.act .pass) := ⟨responders, asked_act_of_eq responders,
        sendsNone (Engine.sentBetween_of_router_eq routerEq), goesOn goes⟩
      exact Or.inr ⟨after, current, goes.activity_eq, goesOn goes,
        inPass.of_keeps inHand laterEq breaks_iff keeps, Or.inl lower⟩
  | wait isBlocked goes responders routerEq =>
      have keeps : watch.Keeps (watch.act .pass) := ⟨responders, asked_act_of_eq responders,
        sendsNone (Engine.sentBetween_of_router_eq_or_wait routerEq), goesOn goes⟩
      exact Or.inr ⟨pass, current, goes.activity_eq, goesOn goes, inPass.of_keeps rfl rfl Iff.rfl keeps,
        Or.inr isBlocked⟩

theorem OnCourse.of_keeps (course : watch.OnCourse script router discovers)
    (activity : next.engine.activity = watch.engine.activity) (keeps : watch.Keeps next) :
    next.OnCourse script router discovers := by
  cases course with
  | off noDiscovery isOff atRest =>
      exact .off noDiscovery (activity.trans isOff) (atRest.of_keeps keeps)
  | resting rests atRest => exact .resting (activity.trans rests) (atRest.of_keeps keeps)
  | passing passes inPass =>
      exact .passing (activity.trans passes) (inPass.of_keeps rfl rfl Iff.rfl keeps)

theorem sender_eq_of_ne_pass {action : Action} (notPass : action ≠ .pass) :
    action.sender = Engine.caller := by
  cases action <;> first | rfl | exact absurd rfl notPass

/-- What is no step of a pass asks no host, and discovery sends nothing in it. -/
theorem keeps_act_of_ne_pass {action : Action} (notPass : action ≠ .pass)
    (passes : (watch.act action).passes = watch.passes) : watch.Keeps (watch.act action) where
  responders_eq := (Engine.leavesHosts_act watch.engine notPass).responders_eq
  asked_eq := asked_act_of_eq (Engine.leavesHosts_act watch.engine notPass).responders_eq
  reported_eq := by
    rw [sentBy_act, sender_eq_of_ne_pass notPass]
    simp [Engine.caller]
  passes_eq := passes

theorem keeps_act_of_isOutside {action : Action} (outside : action.isOutside = true) :
    watch.Keeps (watch.act action) := by
  apply keeps_act_of_ne_pass
  · rintro rfl
    cases outside
  · exact passes_act_of_eq (Engine.activity_act_of_isOutside watch.engine outside)

theorem IsServed.act_of_ne_pass (served : watch.IsServed router) {action : Action}
    (notPass : action ≠ .pass) : (watch.act action).IsServed router := by
  have leaves := Engine.leavesHosts_act watch.engine notPass
  exact served.act leaves.probes_eq ((sender_eq_of_ne_pass notPass).symm ▸ leaves.serves)

theorem IsServed.plan_eq (served : watch.IsServed router) :
    watch.engine.plan = planOf router.hosts.length (Listing.probeKeys router.bucketCount) := by
  rw [Engine.plan, served.router_eq, served.probes_eq]
  rfl

/-- When the pass that is due starts, all its probes are before it. -/
theorem AtRest.act_start (atRest : watch.AtRest script router) (served : watch.IsServed router)
    (unbroken : ∀ host < router.hosts.length, (script host).brokenCalls = []) {due : Nat}
    (rests : watch.engine.activity = .resting due) (isDue : due ≤ watch.engine.now) :
    ∃ due pass current, (watch.act .start).engine.activity = .passing due pass ∧
      (watch.act .start).passes = watch.passes ∧
      (watch.act .start).InPass script router pass current := by
  have startEq : watch.engine.act .start = watch.engine.startPass due := by
    simp only [Engine.act, rests, if_pos isDue]
  have activity : (watch.act .start).engine.activity =
      .passing (watch.engine.nextDue due) ⟨watch.engine.now, watch.engine.plan, .asking⟩ :=
    congrArg Engine.activity startEq
  have passes : (watch.act .start).passes = watch.passes := by
    simp [Watch.act, Engine.isPassing, rests]
  refine ⟨_, _, _, activity, passes,
    atRest.startPass unbroken ?_ ?_ ?_ (keeps_act_of_ne_pass (by simp) passes)⟩
  · simp [Pass.inHand]
  · simpa [Pass.later] using served.plan_eq
  · exact Pass.not_isBreaking_of_stage (by simp)

theorem OnCourse.act_of_stays (course : watch.OnCourse script router discovers)
    (served : watch.IsServed router) {action : Action}
    (stays : watch.engine.act action = watch.engine) :
    (watch.act action).IsServed router ∧ (watch.act action).OnCourse script router discovers := by
  have engineEq : (watch.act action).engine = watch.engine := stays
  have keeps : watch.Keeps (watch.act action) := by
    refine ⟨by rw [engineEq], asked_act_of_eq (by rw [stays]), ?_, passes_act_of_eq (by rw [stays])⟩
    rw [sentBy_act, stays, Engine.sentBetween_of_router_eq rfl, ite_self, List.append_nil]
  constructor
  · exact served.act (by rw [stays]) (Engine.serves_of_router_eq (by rw [stays]))
  · exact course.of_keeps (by rw [engineEq]) keeps

theorem OnCourse.act_of_isOutside (course : watch.OnCourse script router discovers)
    (served : watch.IsServed router) {action : Action} (outside : action.isOutside = true) :
    (watch.act action).IsServed router ∧ (watch.act action).OnCourse script router discovers := by
  have notPass : action ≠ .pass := by
    rintro rfl
    cases outside
  have sameActivity := Engine.activity_act_of_isOutside watch.engine outside
  exact ⟨served.act_of_ne_pass notPass,
    course.of_keeps sameActivity (keeps_act_of_isOutside outside)⟩

/-- Whatever happens, passes keep on their course. -/
theorem OnCourse.act (course : watch.OnCourse script router discovers)
    (served : watch.IsServed router)
    (unbroken : ∀ host < router.hosts.length, (script host).brokenCalls = []) (action : Action) :
    (watch.act action).IsServed router ∧ (watch.act action).OnCourse script router discovers := by
  cases action with
  | pass =>
      cases course with
      | off noDiscovery isOff atRest =>
          exact OnCourse.act_of_stays (.off noDiscovery isOff atRest) served
            (by rw [Engine.act, isOff])
      | resting rests atRest =>
          exact OnCourse.act_of_stays (.resting rests atRest) served (by rw [Engine.act, rests])
      | passing activity inPass =>
          obtain ⟨servedNow, ⟨rests, -, atRest⟩ | ⟨after, current, goesOn, -, inPassNow, -⟩⟩ :=
            inPass.act served activity
          · exact ⟨servedNow, .resting rests atRest⟩
          · exact ⟨servedNow, .passing goesOn inPassNow⟩
  | start =>
      cases course with
      | off noDiscovery isOff atRest =>
          exact OnCourse.act_of_stays (.off noDiscovery isOff atRest) served
            (by rw [Engine.act, isOff])
      | @resting due rests atRest =>
          by_cases isDue : due ≤ watch.engine.now
          · obtain ⟨_, _, _, activity, -, inPass⟩ := atRest.act_start served unbroken rests isDue
            exact ⟨served.act_of_ne_pass (by simp), .passing activity inPass⟩
          · exact OnCourse.act_of_stays (.resting rests atRest) served
              (by simp only [Engine.act, rests, if_neg isDue])
      | passing activity inPass =>
          exact OnCourse.act_of_stays (.passing activity inPass) served
            (by rw [Engine.act, activity])
  | _ => exact course.act_of_isOutside served rfl

end Steps

end Watch

end CacheRouting
