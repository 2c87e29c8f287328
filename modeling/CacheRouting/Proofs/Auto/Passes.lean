import CacheRouting.Proofs.Auto.Discovery

/-!
# Whole passes

Every pass that has started can be completed, and then each host has been asked up
to its first failure and all that it listed has been reported.  What other hosts
answer makes no difference to any of this, nor to the weight of the host.
-/

namespace CacheRouting

namespace Watch

open Discovery
open Engine (Action)

variable {script : Nat → Responder} {router : AutoRouter Float} {discovers : Bool} {watch : Watch}

theorem OnCourse.run (course : watch.OnCourse script router discovers)
    (served : watch.IsServed router)
    (unbroken : ∀ host < router.hosts.length, (script host).brokenCalls = [])
    (actions : List Action) :
    (watch.run actions).IsServed router ∧ (watch.run actions).OnCourse script router discovers := by
  induction actions generalizing watch with
  | nil => exact ⟨served, course⟩
  | cons action actions ih =>
      obtain ⟨servedNext, courseNext⟩ := course.act served unbroken action
      exact ih courseNext servedNext

theorem InPass.run_of_isOutside {pass : Pass} {current : Nat → Responder}
    (inPass : watch.InPass script router pass current) {actions : List Action}
    (outside : ∀ action ∈ actions, action.isOutside = true) :
    (watch.run actions).InPass script router pass current := by
  induction actions generalizing watch with
  | nil => exact inPass
  | cons action actions ih =>
      obtain ⟨isOutside, restOutside⟩ := List.forall_mem_cons.mp outside
      exact ih (inPass.of_keeps rfl rfl Iff.rfl (keeps_act_of_isOutside isOutside)) restOutside

/-- Whatever a pass waits for can happen, and each step that need not wait brings the pass
nearer to its end. -/
theorem InPass.exists_completion {due : Nat} {pass : Pass} {current : Nat → Responder}
    (inPass : watch.InPass script router pass current) (served : watch.IsServed router)
    (activity : watch.engine.activity = .passing due pass) :
    ∃ more, (watch.run more).passes = watch.passes + 1 ∧
      (watch.run more).engine.isPassing = false := by
  induction rankEq : pass.rank using WellFoundedLT.induction
    generalizing watch pass current with
  | ind rank ih =>
      obtain ⟨actions, outside, isFree⟩ := served.exists_isFree pass
      obtain ⟨servedThen, activityThen, passesThen⟩ := served.run_of_isOutside outside
      have inPassThen := inPass.run_of_isOutside outside
      obtain ⟨servedNow, ⟨rests, passes, -⟩ | ⟨after, current, goesOn, passes, inPassNow, lower⟩⟩ :=
        inPassThen.act servedThen (activityThen.trans activity)
      · refine ⟨actions ++ [.pass], ?_, ?_⟩
        · rw [run_append, ← passesThen]
          exact passes
        · rw [run_append]
          change ((watch.run actions).act .pass).engine.isPassing = false
          rw [Engine.isPassing, rests]
      · have rankLower : after.rank < rank :=
          rankEq ▸ lower.resolve_right fun isBlocked => isBlocked isFree
        obtain ⟨more, completed, notPassing⟩ :=
          ih after.rank rankLower inPassNow servedNow goesOn rfl
        refine ⟨actions ++ .pass :: more, ?_, ?_⟩
        · rw [run_append, ← passesThen, ← passes]
          exact completed
        · rw [run_append]
          exact notPassing

theorem OnCourse.exists_completion (course : watch.OnCourse script router true)
    (served : watch.IsServed router)
    (unbroken : ∀ host < router.hosts.length, (script host).brokenCalls = []) :
    ∃ more, (watch.run more).passes = watch.passes + 1 ∧
      (watch.run more).engine.isPassing = false := by
  cases course with
  | off noDiscovery => cases noDiscovery
  | passing activity inPass => exact inPass.exists_completion served activity
  | @resting due rests atRest =>
      have elapsed : (watch.act (.elapse due)).engine.activity = .resting due := rests
      have isDue : due ≤ (watch.act (.elapse due)).engine.now := Nat.le_add_left ..
      have keeps : watch.Keeps (watch.act (.elapse due)) := keeps_act_of_isOutside rfl
      have atRestThen : (watch.act (.elapse due)).AtRest script router := atRest.of_keeps keeps
      have servedThen : (watch.act (.elapse due)).IsServed router := served.act_of_ne_pass (by simp)
      obtain ⟨_, _, _, activity, passes, inPass⟩ :=
        atRestThen.act_start servedThen unbroken elapsed isDue
      obtain ⟨more, completed, notPassing⟩ :=
        inPass.exists_completion (servedThen.act_of_ne_pass (by simp)) activity
      refine ⟨.elapse due :: .start :: more, ?_, notPassing⟩
      rw [← keeps.passes_eq, ← passes]
      exact completed

/-- With nobody else reporting on a host, the reports on it are those of discovery. -/
theorem filter_reportsIn_sent {host : Nat}
    (others : ∀ sender, sender ≠ .discovery →
      ∀ item ∈ reportsIn (watch.sentBy sender), item.host ≠ host) :
    (reportsIn watch.sent).filter (fun item => item.host == host) =
      (reportsIn (watch.sentBy .discovery)).filter fun item => item.host == host := by
  have ofLog : ∀ log : List (Sender × Message Float),
      (∀ entry ∈ log, entry.1 ≠ .discovery → ∀ item, entry.2 = .feedback item → item.host ≠ host) →
      (reportsIn (log.map (·.2))).filter (fun item => item.host == host) =
        (reportsIn ((log.filter fun entry => entry.1 == .discovery).map (·.2))).filter
          fun item => item.host == host := by
    intro log foreign
    induction log with
    | nil => rfl
    | cons entry log ih =>
        obtain ⟨ofEntry, ofRest⟩ := List.forall_mem_cons.mp foreign
        have first (messages : List (Message Float)) :
            reportsIn (entry.2 :: messages) = reportsIn [entry.2] ++ reportsIn messages :=
          reportsIn_append [entry.2] messages
        rw [List.map_cons, first, List.filter_append, ih ofRest]
        by_cases own : entry.1 = .discovery
        · rw [List.filter_cons_of_pos (by simp [own]), List.map_cons,
            first ((log.filter fun entry => entry.1 == .discovery).map (·.2)), List.filter_append]
        · rw [List.filter_cons_of_neg (by simp [own])]
          have noneNamed : (reportsIn [entry.2]).filter (fun item => item.host == host) = [] := by
            apply List.filter_eq_nil_iff.mpr
            intro item member
            have isReport := (List.mem_singleton.mp (mem_reportsIn.mp member)).symm
            simpa using ofEntry own item isReport
          rw [noneNamed, List.nil_append]
  apply ofLog
  intro entry member notDiscovery item isReport
  apply others entry.1 notDiscovery item
  rw [mem_reportsIn, sentBy, List.mem_map]
  exact ⟨entry, by simp [member], isReport⟩

theorem IsServed.weightOf_of_drained (served : watch.IsServed router)
    (drained : watch.engine.router.dispatch.pending = []) {bucket host : Nat}
    (bucketKnown : bucket < router.bucketCount) (known : host < router.hosts.length) :
    watch.engine.router.dispatch.published = watch.engine.router.dispatch.table ∧
      ∃ view, watch.engine.router.dispatch.table.view? bucket = some view ∧
        view.weightOf host = BucketView.weightAfter
          ((BucketView.initial router.hosts.length : BucketView Float).weightOf host)
          ((RoutingTable.reportsNaming bucket host (reportsIn watch.sent)).map (·.amount)) := by
  obtain ⟨done, follows⟩ := served.follows
  obtain ⟨publishedEq, tableEq, -⟩ := follows.table_of_pending_eq_nil drained
  refine ⟨publishedEq, ?_⟩
  rw [tableEq]
  exact (RoutingTable.covers_initial router.hosts.length router.bucketCount).weightOf_applyAll
    (RoutingTable.view?_initial bucketKnown) known _

theorem filter_reportsIn_map_reportOf (entries : List (Nat × String × Float)) (host : Nat) :
    (reportsIn (entries.map (reportOf router))).filter (fun item => item.host == host) =
      reportsIn ((entries.filter fun entry => entry.1 == host).map (reportOf router)) := by
  induction entries with
  | nil => rfl
  | cons entry entries ih =>
      have reported : reportsIn ((entry :: entries).map (reportOf router)) =
          ⟨entry.1, router.bucketOf entry.2.1, entry.2.2⟩ ::
            reportsIn (entries.map (reportOf router)) := rfl
      rw [reported, List.filter_cons, List.filter_cons, ih]
      split <;> rfl

def begin (router : AutoRouter Float) (script : Nat → Responder) (options : AutoOptions)
    (journal : Journal) : Watch :=
  start (Engine.start router ((List.range router.hosts.length).map script) options journal)

theorem onCourse_begin {hosts : List Host} {bucketCount : Nat} {method : HashMethod}
    {options : AutoOptions}
    (built : AutoRouter.build hosts bucketCount method options true = .ok router)
    (script : Nat → Responder) (journal : Journal) :
    (begin router script options journal).IsServed router ∧
      (begin router script options journal).OnCourse script router
        (options.discovery && options.interval != 0) := by
  obtain ⟨-, -, routerEq⟩ := AutoRouter.build_eq_ok built
  subst routerEq
  have atRest : (begin ⟨hosts, bucketCount, method,
      Dispatch.initial hosts.length bucketCount options.mailbox⟩ script options journal).AtRest script
        ⟨hosts, bucketCount, method,
          Dispatch.initial hosts.length bucketCount options.mailbox⟩ := by
    refine ⟨?_, rfl, rfl⟩
    intro host known
    simp [begin, start, Engine.start, Responder.afterPasses, known]
  constructor
  · exact ⟨rfl, rfl, rfl, ⟨[], Dispatch.follows_initial ..⟩,
      ⟨max options.mailbox 1, by omega, Mailbox.isBounded_empty _⟩, by simp [begin, start,
        Engine.start, Dispatch.initial]⟩
  · by_cases discovers : (options.discovery && options.interval != 0) = true
    · have rests : (begin ⟨hosts, bucketCount, method,
          Dispatch.initial hosts.length bucketCount options.mailbox⟩ script options
            journal).engine.activity = .resting 0 := by
        simp [begin, start, Engine.start, discovers]
      exact .resting rests atRest
    · exact .off (by simpa using discovers) (by simp [begin, start, Engine.start, discovers]) atRest

/-- What hosts have been asked and what passes have reported, at any time and between passes. -/
theorem OnCourse.totals (course : watch.OnCourse script router discovers) :
    (watch.asked <+: askedInPasses script router.hosts.length
        (Listing.probeKeys router.bucketCount) (watch.passes + 1) ∧
      watch.sentBy .discovery <+: (listedInPasses script router.hosts.length
        (Listing.probeKeys router.bucketCount) (watch.passes + 1)).map (reportOf router)) ∧
    (watch.engine.isPassing = false →
      watch.asked = askedInPasses script router.hosts.length
        (Listing.probeKeys router.bucketCount) watch.passes ∧
      watch.sentBy .discovery = (listedInPasses script router.hosts.length
        (Listing.probeKeys router.bucketCount) watch.passes).map (reportOf router)) := by
  have ofRest (atRest : watch.AtRest script router) :
      watch.asked <+: askedInPasses script router.hosts.length
          (Listing.probeKeys router.bucketCount) (watch.passes + 1) ∧
        watch.sentBy .discovery <+: (listedInPasses script router.hosts.length
          (Listing.probeKeys router.bucketCount) (watch.passes + 1)).map (reportOf router) := by
    rw [askedInPasses_succ, listedInPasses_succ, List.map_append, atRest.asked, atRest.reported]
    exact ⟨List.prefix_append .., List.prefix_append ..⟩
  cases course with
  | off _ _ atRest => exact ⟨ofRest atRest, fun _ => ⟨atRest.asked, atRest.reported⟩⟩
  | resting _ atRest => exact ⟨ofRest atRest, fun _ => ⟨atRest.asked, atRest.reported⟩⟩
  | passing activity inPass =>
      refine ⟨⟨?_, ?_⟩, ?_⟩
      · rw [← inPass.asked]
        exact List.prefix_append ..
      · rw [← inPass.reported]
        exact List.prefix_append ..
      · intro notPassing
        rw [Engine.isPassing, activity] at notPassing
        cases notPassing

/-- Two schedulers that differ in the replies of other hosts ask a host the same probes, report
the same on it, and give it the same weight. -/
theorem OnCourse.same_of_script_eq {other : Nat → Responder} {otherDiscovers : Bool}
    {otherWatch : Watch} (course : watch.OnCourse script router discovers)
    (served : watch.IsServed router)
    (otherCourse : otherWatch.OnCourse other router otherDiscovers)
    (otherServed : otherWatch.IsServed router) {host : Nat} (known : host < router.hosts.length)
    (same : other host = script host) (passes : otherWatch.passes = watch.passes)
    (notPassing : watch.engine.isPassing = false)
    (otherNotPassing : otherWatch.engine.isPassing = false) :
    otherWatch.asked.filter (fun next => next.1 == host) =
        watch.asked.filter (fun next => next.1 == host) ∧
      (reportsIn (otherWatch.sentBy .discovery)).filter (fun item => item.host == host) =
        (reportsIn (watch.sentBy .discovery)).filter (fun item => item.host == host) ∧
      ((∀ each ∈ [watch, otherWatch], each.engine.router.dispatch.pending = [] ∧
          ∀ sender, sender ≠ .discovery →
            ∀ item ∈ reportsIn (each.sentBy sender), item.host ≠ host) →
        ∀ bucket < router.bucketCount, ∃ view otherView,
          watch.engine.router.dispatch.load? bucket = some view ∧
          otherWatch.engine.router.dispatch.load? bucket = some otherView ∧
          otherView.weightOf host = view.weightOf host) := by
  obtain ⟨asked, reported⟩ := course.totals.2 notPassing
  obtain ⟨otherAsked, otherReported⟩ := otherCourse.totals.2 otherNotPassing
  have reportedSame :
      (reportsIn (otherWatch.sentBy .discovery)).filter (fun item => item.host == host) =
        (reportsIn (watch.sentBy .discovery)).filter (fun item => item.host == host) := by
    rw [reported, otherReported, filter_reportsIn_map_reportOf, filter_reportsIn_map_reportOf,
      filter_listedInPasses _ _ known, filter_listedInPasses _ _ known, same, passes]
  refine ⟨?_, reportedSame, ?_⟩
  · rw [asked, otherAsked, filter_askedInPasses _ _ known, filter_askedInPasses _ _ known, same,
      passes]
  · intro quiet bucket bucketKnown
    obtain ⟨⟨drained, foreign⟩, otherDrained, otherForeign⟩ :
        (_ ∧ _) ∧ _ ∧ _ := ⟨quiet watch (by simp), quiet otherWatch (by simp)⟩
    obtain ⟨publishedEq, view, has, weight⟩ := served.weightOf_of_drained drained bucketKnown known
    obtain ⟨otherPublishedEq, otherView, otherHas, otherWeight⟩ :=
      otherServed.weightOf_of_drained otherDrained bucketKnown known
    refine ⟨view, otherView, ?_, ?_, ?_⟩
    · rw [Dispatch.load?, publishedEq]
      exact has
    · rw [Dispatch.load?, otherPublishedEq]
      exact otherHas
    · have naming (items : List (Feedback Float)) : RoutingTable.reportsNaming bucket host items =
          (items.filter fun item => item.host == host).filter fun item => item.bucket == bucket := by
        rw [RoutingTable.reportsNaming, List.filter_filter]
      rw [weight, otherWeight, naming, naming, filter_reportsIn_sent foreign,
        filter_reportsIn_sent otherForeign, reportedSame]

/-- In every pass each host is asked up to the first probe that it fails, host after host,
and what it lists before that is reported and nothing else, whatever else goes on meanwhile.
Every pass can be completed.  After as many passes, two schedulers that differ in the replies
of other hosts have asked a host the same probes and have reported the same on it, and with
all messages counted and nobody else reporting on the host it weighs the same. -/
theorem passes_report_what_hosts_list {script : Nat → Responder} {hostCount bucketCount : Nat}
    {method : HashMethod} {options : AutoOptions} {router : AutoRouter Float}
    (built : AutoRouter.build ((List.range hostCount).map fun host => (script host).host) bucketCount
      method options true = .ok router)
    (unbroken : ∀ host < hostCount, (script host).brokenCalls = []) (journal : Journal)
    (actions : List Action) :
    let probes := Listing.probeKeys bucketCount
    let watch := (begin router script options journal).run actions
    (watch.asked <+: askedInPasses script hostCount probes (watch.passes + 1) ∧
      watch.sentBy .discovery <+:
        (listedInPasses script hostCount probes (watch.passes + 1)).map (reportOf router)) ∧
    (watch.engine.isPassing = false →
      watch.asked = askedInPasses script hostCount probes watch.passes ∧
      watch.sentBy .discovery =
        (listedInPasses script hostCount probes watch.passes).map (reportOf router)) ∧
    (options.discovery = true → options.interval ≠ 0 →
      ∃ more, (watch.run more).passes = watch.passes + 1 ∧
        (watch.run more).engine.isPassing = false) ∧
    ∀ (other : Nat → Responder) (otherJournal : Journal) (otherActions : List Action),
      (∀ host < hostCount, (other host).brokenCalls = []) →
      let otherWatch := (begin router other options otherJournal).run otherActions
      otherWatch.passes = watch.passes → watch.engine.isPassing = false →
      otherWatch.engine.isPassing = false → ∀ host < hostCount, other host = script host →
      otherWatch.asked.filter (fun next => next.1 == host) =
          watch.asked.filter (fun next => next.1 == host) ∧
        (reportsIn (otherWatch.sentBy .discovery)).filter (fun item => item.host == host) =
          (reportsIn (watch.sentBy .discovery)).filter (fun item => item.host == host) ∧
        ((∀ each ∈ [watch, otherWatch], each.engine.router.dispatch.pending = [] ∧
            ∀ sender, sender ≠ .discovery →
              ∀ item ∈ reportsIn (each.sentBy sender), item.host ≠ host) →
          ∀ bucket < bucketCount, ∃ view otherView,
            watch.engine.router.dispatch.load? bucket = some view ∧
            otherWatch.engine.router.dispatch.load? bucket = some otherView ∧
            otherView.weightOf host = view.weightOf host) := by
  obtain ⟨-, -, routerEq⟩ := AutoRouter.build_eq_ok built
  have hostCountEq : router.hosts.length = hostCount := by
    rw [routerEq, List.length_map, List.length_range]
  have bucketCountEq : router.bucketCount = bucketCount := by rw [routerEq]
  intro probes watch
  obtain ⟨servedBegin, courseBegin⟩ := onCourse_begin built script journal
  obtain ⟨served, course⟩ := courseBegin.run servedBegin (hostCountEq.symm ▸ unbroken) actions
  obtain ⟨atAnyTime, betweenPasses⟩ := course.totals
  rw [hostCountEq, bucketCountEq] at atAnyTime betweenPasses
  refine ⟨atAnyTime, betweenPasses, ?_, ?_⟩
  · intro isOn hasInterval
    have discovers : (options.discovery && options.interval != 0) = true := by
      simp [isOn, hasInterval]
    rw [discovers] at course
    exact course.exists_completion served (hostCountEq.symm ▸ unbroken)
  · intro other otherJournal otherActions otherUnbroken otherWatch passes notPassing otherNotPassing
      host known same
    obtain ⟨otherServedBegin, otherCourseBegin⟩ := onCourse_begin built other otherJournal
    obtain ⟨otherServed, otherCourse⟩ :=
      otherCourseBegin.run otherServedBegin (hostCountEq.symm ▸ otherUnbroken) otherActions
    have isolated := course.same_of_script_eq served otherCourse otherServed
      (hostCountEq.symm ▸ known) same passes notPassing otherNotPassing
    rwa [bucketCountEq] at isolated

/-- The second of three hosts fails, and the third waits for room in the mailbox. -/
theorem passes_report_what_hosts_list_past_failure :
    let script : Nat → Responder := fun host =>
      ⟨⟨toString host⟩, [], fun _ => 5 * host, host == 1, [("@", [.body "a/ 0 16".toUTF8.toList])], 0, none⟩
    let watch := (begin ⟨[⟨"0"⟩, ⟨"1"⟩, ⟨"2"⟩], 1, .crc32, Dispatch.initial 3 1 1⟩ script ⟨1000, 1, true⟩
      (.empty none)).run [.start, .pass, .pass, .pass, .pass, .elapse 5, .pass, .pass, .elapse 10,
        .pass, .pass, .work, .pass, .pass, .pass]
    watch.asked = [(0, "@"), (1, "@"), (2, "@")] ∧
      watch.sentBy .discovery = [.feedback ⟨0, 0, 4⟩, .feedback ⟨2, 0, 4⟩] := by
  intro script watch
  have built : AutoRouter.build ((List.range 3).map fun host => (script host).host) 1 .crc32
      ⟨1000, 1, true⟩ true = .ok (⟨[⟨"0"⟩, ⟨"1"⟩, ⟨"2"⟩], 1, .crc32,
        Dispatch.initial 3 1 1⟩ : AutoRouter Float) := rfl
  obtain ⟨-, betweenPasses, -⟩ := passes_report_what_hosts_list built (fun _ _ => rfl) (.empty none)
    [.start, .pass, .pass, .pass, .pass, .elapse 5, .pass, .pass, .elapse 10,
      .pass, .pass, .work, .pass, .pass, .pass]
  have completed : watch.passes = 1 := by decide +kernel
  have notPassing : watch.engine.isPassing = false := by decide +kernel
  obtain ⟨asked, reported⟩ := betweenPasses notPassing
  constructor
  · refine asked.trans ?_
    change askedInPasses script 3 (Listing.probeKeys 1) watch.passes = _
    rw [completed]
    decide +kernel
  · refine reported.trans ?_
    change (listedInPasses script 3 (Listing.probeKeys 1) watch.passes).map (reportOf _) = _
    rw [completed]
    decide +kernel

end Watch

end CacheRouting
