import CacheRouting.Config.Decode
import CacheRouting.Proofs.Auto.Evolution
import CacheRouting.Proofs.Config.Validation
import CacheRouting.Proofs.Duration
import CacheRouting.Proofs.Routing.Build

/-!
# The time between passes

A configuration is accepted whichever duration it gives between two passes.  With any
time between them the rounds live until the scheduler is dropped, whatever the hosts
do.  With none they have ended before the first pass, and the scheduler routes without
ever asking a host.  The texts that give none are those with only zeros before a unit.
-/

namespace CacheRouting

namespace Config

variable {text : String} {config : Config}

theorem validate_of_parse (accepted : parse text = .ok config) : config.validate = .ok () := by
  unfold parse at accepted
  split at accepted
  · cases accepted
  · split at accepted
    · next valid =>
      cases accepted
      exact valid
    · cases accepted

/-- The duration that is written is the one that counts. -/
theorem parse?_interval_of_validate (valid : config.validate = .ok ()) {written : String}
    (isWritten : config.discovery.interval = some written) :
    Duration.parse? written = some config.discovery.effectiveInterval := by
  have readable : IsReadable config.discovery.interval := config.validate_eq_ok_iff.mp valid .interval
  exact (takesEffect_of_isReadable readable _).1 written isWritten

theorem effectiveInterval_of_none {part : DiscoverySection} (notWritten : part.interval = none) :
    part.effectiveInterval = Duration.ofSeconds 10 := by
  rw [DiscoverySection.effectiveInterval, notWritten, Option.bind_none, Option.getD_none]

theorem effectiveInterval_eq_zero_iff (valid : config.validate = .ok ()) :
    config.discovery.effectiveInterval.milliseconds = 0 ↔
      ∃ written, config.discovery.interval = some written ∧ Duration.WritesZero written := by
  cases interval : config.discovery.interval with
  | none =>
      rw [effectiveInterval_of_none interval]
      simp [Duration.ofSeconds]
  | some written =>
      rw [← Duration.writesZero_iff (parse?_interval_of_validate valid interval)]
      simp

end Config

theorem Scheduler.exists_build_of_auto {part : Config.SchedulerSection}
    {discovery : Config.DiscoverySection} {router : AutoRouter Float}
    (built : Scheduler.build part discovery true = .ok (.auto router)) :
    ∃ hosts bucketCount method,
      AutoRouter.build hosts bucketCount method discovery.options true = .ok router := by
  unfold Scheduler.build at built
  split at built
  · cases built
  · split at built
    · cases built
    · next method _ =>
      unfold ofSection at built
      split at built
      · obtain ⟨value, -, isAuto⟩ := Construction.map_eq_ok_iff.mp built
        cases isAuto
      · obtain ⟨value, -, isAuto⟩ := Construction.map_eq_ok_iff.mp built
        cases isAuto
      · obtain ⟨value, -, isAuto⟩ := Construction.map_eq_ok_iff.mp built
        cases isAuto
      · obtain ⟨value, madeRouter, isAuto⟩ := Construction.map_eq_ok_iff.mp built
        cases isAuto
        exact ⟨_, _, method, madeRouter⟩

namespace Runner

variable {router : AutoRouter Float} {script : Nat → Responder} {options : AutoOptions}
  {journal : Journal} {runner : Runner}

/-- There is always a next pass.  It begins when it is due, and all that has happened can be
recorded as passes that go on one after the other. -/
structure RoundsLive (router : AutoRouter Float) (start : Chronicle) (runner : Runner) : Prop where
  tick : ∃ due, runner.engine.nextTick? = some due
  prompt : runner.IsPrompt router
  recorded : ∃ occurrences, (start.recordAll occurrences).watch.engine = runner.engine ∧
    (start.recordAll occurrences).GoesOn router

/-- No pass goes on or is ever due, and the hosts have been asked no more than at first. -/
structure RoundsDead (start runner : Runner) : Prop where
  noTick : runner.engine.nextTick? = none
  notPassing : runner.engine.isPassing = false
  unasked : ∀ host, runner.engine.callsOf host = start.engine.callsOf host

theorem roundsLive_of_evolves {hosts : List Host} {bucketCount : Nat} {method : HashMethod}
    (built : AutoRouter.build hosts bucketCount method options true = .ok router)
    (isOn : options.discovery = true) (positive : 0 < options.interval)
    (evolves : Relation.ReflTransGen Evolves (begin router script options journal) runner)
    (isHeld : runner.dropped = false) :
    runner.RoundsLive router (Chronicle.begin router script options journal) := by
  have isTrue := Chronicle.isTrue_begin built isOn positive.ne' script journal
  obtain ⟨occurrences, ran⟩ := exists_occurrences_of_evolves isTrue positive rfl evolves isHeld
  have isTrueNow := isTrue.recordAll positive occurrences
  have planEq : runner.engine.plan = PassAccount.fullPlan router := ran ▸ isTrueNow.served.plan_eq
  obtain ⟨due, tick, -⟩ := isTrueNow.tick
  exact ⟨⟨due, ran ▸ tick⟩, (attends_of_evolves evolves).isPrompt isHeld planEq, occurrences, ran,
    isTrueNow.goesOn positive⟩

/-- Without time between passes there is none. -/
theorem roundsDead_of_evolves (noTime : options.interval = 0)
    (evolves : Relation.ReflTransGen Evolves (begin router script options journal) runner) :
    RoundsDead (begin router script options journal) runner := by
  have isOff : (begin router script options journal).engine.HasEnded :=
    Or.inl (by simp [begin, start, Engine.start, noTime])
  obtain ⟨ended, sameCalls⟩ := hasEnded_of_evolves evolves isOff
  exact ⟨ended.nextTick?_eq, ended.isPassing_eq, sameCalls⟩

end Runner

namespace Config

open Runner (Evolves RoundsLive RoundsDead)

/-- In an accepted configuration there is time between the passes unless only zeros are written
for it.  The rounds of a scheduler that is built from it live until it is dropped, whatever its
hosts do, if there is time between them, and are dead from the start if there is none. -/
theorem rounds_live_unless_interval_is_zero {text : String} {config : Config}
    (accepted : parse text = .ok config) :
    (config.discovery.interval = none →
      config.discovery.effectiveInterval = Duration.ofSeconds 10) ∧
    (∀ written, config.discovery.interval = some written →
      Duration.parse? written = some config.discovery.effectiveInterval) ∧
    (config.discovery.effectiveInterval.milliseconds = 0 ↔
      ∃ written, config.discovery.interval = some written ∧ Duration.WritesZero written) ∧
    ∀ router,
      Scheduler.build config.scheduler config.discovery true = .ok (.auto router) →
      config.discovery.isEnabled = true →
      ∀ script journal runner,
        Relation.ReflTransGen Evolves
          (Runner.begin router script config.discovery.options journal) runner →
        (0 < config.discovery.effectiveInterval.milliseconds → runner.dropped = false →
          runner.RoundsLive router
            (Chronicle.begin router script config.discovery.options journal)) ∧
        (config.discovery.effectiveInterval.milliseconds = 0 →
          RoundsDead (Runner.begin router script config.discovery.options journal) runner) := by
  have valid := validate_of_parse accepted
  refine ⟨effectiveInterval_of_none, fun written => parse?_interval_of_validate valid,
    effectiveInterval_eq_zero_iff valid, ?_⟩
  intro router built isOn script journal runner evolves
  constructor
  · intro positive isHeld
    obtain ⟨hosts, bucketCount, method, builtRouter⟩ := Scheduler.exists_build_of_auto built
    exact Runner.roundsLive_of_evolves builtRouter isOn positive evolves isHeld
  · exact fun noTime => Runner.roundsDead_of_evolves noTime evolves

def oneHost (interval : String) : Config :=
  ⟨⟨.auto, none, some ["a"], none, none⟩, ⟨none, some interval, none⟩, ⟨none⟩, ⟨none, none, none⟩⟩

def oneHostRouter : AutoRouter Float :=
  ⟨[⟨"a"⟩], 16, .default, Dispatch.initial 1 16 1024⟩

/-- A millisecond is time enough, also if the host takes to failing before the first pass. -/
theorem rounds_live_unless_interval_is_zero_for_one_millisecond :
    let config := oneHost " 01ms"
    parse "[scheduler]\nkind = \"auto\"\nhosts = [\"a\"]\n[discovery]\ninterval = \" 01ms\"\n" =
        .ok config ∧
      Scheduler.build config.scheduler config.discovery true = .ok (.auto oneHostRouter) ∧
      ¬ Duration.WritesZero " 01ms" ∧
      ∀ script journal,
        ((Runner.begin oneHostRouter script config.discovery.options journal).setResponder 0
          { script 0 with fails := true }).RoundsLive oneHostRouter
            (Chronicle.begin oneHostRouter script config.discovery.options journal) := by
  intro config
  have accepted : parse
      "[scheduler]\nkind = \"auto\"\nhosts = [\"a\"]\n[discovery]\ninterval = \" 01ms\"\n" =
        .ok config := by cbv
  have built : Scheduler.build config.scheduler config.discovery true =
      .ok (.auto oneHostRouter) := by cbv
  have positive : config.discovery.effectiveInterval.milliseconds = 1 := by decide
  obtain ⟨-, -, zeroIff, lives⟩ := rounds_live_unless_interval_is_zero accepted
  refine ⟨accepted, built, ?_, ?_⟩
  · intro writesZero
    have isZero := zeroIff.mpr ⟨_, rfl, writesZero⟩
    cases positive.symm.trans isZero
  · intro script journal
    refine (lives _ built rfl script journal _ (.single (.change 0 _ ?_))).1 ?_ rfl
    · rintro known isKnown
      cases isKnown
      rfl
    · rw [positive]
      decide

/-- A configuration with no time between passes is accepted, and its discovery is dead. -/
theorem zero_interval_is_accepted :
    let config := oneHost "0s"
    parse "[scheduler]\nkind = \"auto\"\nhosts = [\"a\"]\n[discovery]\ninterval = \"0s\"\n" =
        .ok config ∧
      config.discovery.effectiveInterval.milliseconds = 0 ∧ config.discovery.isEnabled = true ∧
      Scheduler.build config.scheduler config.discovery true = .ok (.auto oneHostRouter) ∧
      ∀ script journal runner,
        Relation.ReflTransGen Evolves
          (Runner.begin oneHostRouter script config.discovery.options journal) runner →
        RoundsDead (Runner.begin oneHostRouter script config.discovery.options journal) runner := by
  intro config
  refine ⟨by cbv, by decide, rfl, by cbv, ?_⟩
  exact fun script journal runner evolves => Runner.roundsDead_of_evolves (by decide) evolves

end Config

end CacheRouting
