import CacheRouting.Proofs.Journal.Layers

/-!
# Events divided between the logs of a configuration

Once logging has been set up, the events of the access target go to the file of the access
log, and all others to the main log as far as its filter lets them through.  The files are
found at the paths of the configuration, so that nothing else about it has a say in the
access log.
-/

namespace CacheRouting

def Storage.sinkAt? (storage : Storage) (path : String) : Option LogSink :=
  (storage.fileAt? path).map .file

namespace LogStore

/-- What is open for a path of a configuration, if there is one. -/
inductive Serves (store : LogStore) : Option String → Option LogFile → Prop
  | absent : Serves store none none
  | present {path : String} {log : LogFile} (isAtPath : store.IsAtPath log path) :
      Serves store (some path) (some log)

variable {store next : LogStore} {log other : LogFile} {path otherPath : String}

theorem IsAtPath.openLog (stood : store.IsAtPath other otherPath)
    (opens : store.openLog path = .ok (log, next)) : next.IsAtPath other otherPath := by
  obtain ⟨otherFile, isCurrent, leads⟩ := stood
  obtain ⟨file, opensPath, isNew, currentEq⟩ := exists_of_openLog opens
  have isOther : other ≠ log := by
    rintro rfl
    cases isNew.symm.trans isCurrent
  exact ⟨otherFile, (currentEq other).trans ((if_neg isOther).trans isCurrent),
    (Storage.extends_openAppend opensPath).fileAt?_eq leads⟩

theorem IsAtPath.exists_sink (stands : store.IsAtPath log path) :
    ∃ sink, store.storage.sinkAt? path = some sink ∧ store.sink? (.file log) = some sink := by
  obtain ⟨file, isCurrent, leads⟩ := stands
  refine ⟨.file file, ?_, ?_⟩
  · rw [Storage.sinkAt?, leads, Option.map_some]
  · rw [sink?, isCurrent, Option.map_some]

end LogStore

namespace Subscriber

section Opening

variable {failure : String → StorageError → LogError} {store next : LogStore}
  {path? otherPath? : Option String} {log? other? : Option LogFile}

theorem openConfigured_cases (opens : openConfigured failure store path? = .ok (log?, next)) :
    (path? = none ∧ log? = none ∧ next = store) ∨
      ∃ path log, path? = some path ∧ log? = some log ∧ store.openLog path = .ok (log, next) := by
  cases path? with
  | none =>
      cases opens
      exact .inl ⟨rfl, rfl, rfl⟩
  | some path =>
      rw [openConfigured] at opens
      split at opens
      · next log opened opensLog =>
        cases opens
        exact .inr ⟨path, log, rfl, rfl, opensLog⟩
      · cases opens

variable (opens : openConfigured failure store path? = .ok (log?, next))

include opens

theorem isSound_openConfigured (sound : store.IsSound) : next.IsSound := by
  rcases openConfigured_cases opens with ⟨-, -, rfl⟩ | ⟨path, log, -, -, opensLog⟩
  · exact sound
  · exact sound.openLog opensLog

theorem serves_openConfigured : next.Serves path? log? := by
  rcases openConfigured_cases opens with ⟨rfl, rfl, -⟩ | ⟨path, log, rfl, rfl, opensLog⟩
  · exact .absent
  · exact .present (LogStore.isAtPath_of_openLog opensLog)

theorem serves_openConfigured_of_serves (serves : store.Serves otherPath? other?) :
    next.Serves otherPath? other? := by
  rcases openConfigured_cases opens with ⟨-, -, rfl⟩ | ⟨path, log, -, -, opensLog⟩
  · exact serves
  · cases serves with
    | absent => exact .absent
    | present stood => exact .present (stood.openLog opensLog)

end Opening

variable {environment : Option String} {config : Config.LogSection} {store opened : LogStore}
  {subscriber : Subscriber}

theorem exists_of_setUp (accepted : setUp environment config store = (.ok subscriber, opened)) :
    ∃ between,
      openConfigured .openingAccess store config.access =
        .ok (subscriber.handles.access, between) ∧
      openConfigured .openingError between config.error =
        .ok (subscriber.handles.error, opened) := by
  unfold setUp at accepted
  split at accepted
  · cases accepted
  · split at accepted
    · cases accepted
    · next access between opensAccess =>
      split at accepted
      · cases accepted
      · next error last opensError =>
        cases accepted
        exact ⟨between, opensAccess, opensError⟩

theorem isSound_of_setUp (sound : store.IsSound)
    (accepted : setUp environment config store = (.ok subscriber, opened)) : opened.IsSound := by
  obtain ⟨between, opensAccess, opensError⟩ := exists_of_setUp accepted
  exact isSound_openConfigured opensError (isSound_openConfigured opensAccess sound)

theorem serves_of_setUp (accepted : setUp environment config store = (.ok subscriber, opened)) :
    opened.Serves config.access subscriber.handles.access ∧
      opened.Serves config.error subscriber.handles.error := by
  obtain ⟨between, opensAccess, opensError⟩ := exists_of_setUp accepted
  exact ⟨serves_openConfigured_of_serves opensError (serves_openConfigured opensAccess),
    serves_openConfigured opensError⟩

/-- What is opened is a matter of the two paths alone. -/
theorem handles_eq_of_setUp {otherEnvironment : Option String} {other : Config.LogSection}
    {otherSubscriber : Subscriber} {otherOpened : LogStore}
    (accepted : setUp environment config store = (.ok subscriber, opened))
    (otherAccepted : setUp otherEnvironment other store = (.ok otherSubscriber, otherOpened))
    (accessEq : other.access = config.access) (errorEq : other.error = config.error) :
    otherSubscriber.handles = subscriber.handles ∧ otherOpened = opened := by
  obtain ⟨between, opensAccess, opensError⟩ := exists_of_setUp accepted
  obtain ⟨otherBetween, otherOpensAccess, otherOpensError⟩ := exists_of_setUp otherAccepted
  rw [accessEq, opensAccess] at otherOpensAccess
  obtain ⟨sameAccess, rfl⟩ := Prod.ext_iff.mp (Except.ok.inj otherOpensAccess)
  rw [errorEq, opensError] at otherOpensError
  obtain ⟨sameError, sameStore⟩ := Prod.ext_iff.mp (Except.ok.inj otherOpensError)
  exact ⟨congrArg₂ LogHandles.mk sameAccess.symm sameError.symm, sameStore.symm⟩

end Subscriber

def Config.LogSection.accessSink? (config : Config.LogSection) (storage : Storage) :
    Option LogSink :=
  config.access.bind storage.sinkAt?

/-- Where the main log goes: to the file at its path, or to the console if none is configured. -/
def Config.LogSection.mainSink? (config : Config.LogSection) (storage : Storage) :
    Option LogSink :=
  match config.error with
  | some path => storage.sinkAt? path
  | none => some .console

def Config.LogSection.IsApart (config : Config.LogSection) (storage : Storage) : Prop :=
  ∀ access error, config.access = some access → config.error = some error →
    storage.fileAt? access ≠ storage.fileAt? error

/-- What events leave behind: the lines of the access target in the access log, those of the
other targets that the filter lets through in the main log, each in the order of the events, and
nothing anywhere else. -/
structure DividesEvents (config : Config.LogSection) (enables : Event → Bool)
    (events : List Event) (before after : LogWorld) : Prop where
  access : ∀ path, config.access = some path → ∃ sink,
    config.accessSink? before.store.storage = some sink ∧
      after.bytesAt sink = before.bytesAt sink ++
        linesOf false (events.filter fun event => event.target == accessTarget)
  main : ∃ sink, config.mainSink? before.store.storage = some sink ∧
    after.bytesAt sink = before.bytesAt sink ++
      linesOf true (events.filter fun event => enables event && event.target != accessTarget)
  others : ∀ sink, config.accessSink? before.store.storage ≠ some sink →
    config.mainSink? before.store.storage ≠ some sink → after.bytesAt sink = before.bytesAt sink

theorem DividesEvents.bytesAt_access {config : Config.LogSection} {enables : Event → Bool}
    {events : List Event} {before after : LogWorld} {sink : LogSink}
    (divides : DividesEvents config enables events before after)
    (isAccess : config.accessSink? before.store.storage = some sink) :
    after.bytesAt sink = before.bytesAt sink ++
      linesOf false (events.filter fun event => event.target == accessTarget) := by
  obtain ⟨path, hasPath, -⟩ := Option.bind_eq_some_iff.mp isAccess
  obtain ⟨own, isOwn, bytesEq⟩ := divides.access path hasPath
  cases isAccess.symm.trans isOwn
  exact bytesEq

theorem Config.LogSection.IsApart.mainSink?_ne {config : Config.LogSection} {storage : Storage}
    (apart : config.IsApart storage) {sink : LogSink}
    (isAccess : config.accessSink? storage = some sink) : config.mainSink? storage ≠ some sink := by
  obtain ⟨access, hasAccess, leadsThere⟩ := Option.bind_eq_some_iff.mp isAccess
  obtain ⟨file, leads, rfl⟩ := Option.map_eq_some_iff.mp leadsThere
  rw [mainSink?]
  cases hasError : config.error with
  | none => nofun
  | some error =>
      intro isMain
      obtain ⟨errorFile, errorLeads, ⟨⟩⟩ := Option.map_eq_some_iff.mp isMain
      exact apart access error hasAccess hasError (leads.trans errorLeads.symm)

namespace LogHandles

variable {config : Config.LogSection} {handles : LogHandles} {world : LogWorld}

theorem exists_accessLayer (serves : world.store.Serves config.access handles.access)
    {path : String} (hasPath : config.access = some path) :
    ∃ layer, handles.accessLayer? = some layer := by
  obtain ⟨access, error⟩ := handles
  obtain ⟨filter, accessPath, errorPath⟩ := config
  cases serves with
  | absent => cases hasPath
  | present => exact ⟨_, rfl⟩

theorem exists_sink_accessLayer (serves : world.store.Serves config.access handles.access)
    {layer : LogLayer} (isAccess : handles.accessLayer? = some layer) :
    ∃ sink, config.accessSink? world.store.storage = some sink ∧
      world.store.sink? layer.output = some sink := by
  obtain ⟨access, error⟩ := handles
  obtain ⟨filter, accessPath, errorPath⟩ := config
  cases serves with
  | absent => cases isAccess
  | present stands =>
      cases isAccess
      exact stands.exists_sink

theorem exists_sink_mainLayer (serves : world.store.Serves config.error handles.error)
    (enables : Event → Bool) :
    ∃ sink, config.mainSink? world.store.storage = some sink ∧
      world.store.sink? (handles.mainLayer enables).output = some sink := by
  obtain ⟨access, error⟩ := handles
  obtain ⟨filter, accessPath, errorPath⟩ := config
  cases serves with
  | absent => exact ⟨.console, rfl, rfl⟩
  | present stands => exact stands.exists_sink

/-- The layers of logs that are kept apart write in places of their own. -/
theorem divides (sound : world.store.IsSound)
    (servesAccess : world.store.Serves config.access handles.access)
    (servesError : world.store.Serves config.error handles.error)
    (apart : config.IsApart world.store.storage) (enables : Event → Bool) (events : List Event) :
    DividesEvents config enables events world (events.foldl (handles.deliver enables) world) := by
  obtain ⟨mainSink, isMain, mainOwn⟩ := exists_sink_mainLayer servesError enables
  have isAccess_of_mem {layer : LogLayer} (member : layer ∈ handles.accessLayer?.toList) :
      ∃ sink, config.accessSink? world.store.storage = some sink ∧
        world.store.sink? layer.output = some sink :=
    exists_sink_accessLayer servesAccess (Option.mem_toList.mp member)
  constructor
  · intro path hasPath
    obtain ⟨layer, isAccess⟩ := exists_accessLayer servesAccess hasPath
    obtain ⟨sink, leads, own⟩ := exists_sink_accessLayer servesAccess isAccess
    obtain ⟨showsNone, accepts⟩ := accepts_accessLayer isAccess
    have layersEq : handles.layers enables = [] ++ layer :: [handles.mainLayer enables] := by
      rw [layers, isAccess]
      rfl
    refine ⟨sink, leads, ?_⟩
    rw [bytesAt_foldl_deliver_of_own sound layersEq own, showsNone, accepts]
    rintro other isMainLayer
    rw [List.mem_singleton.mp isMainLayer, mainOwn, ← isMain]
    exact apart.mainSink?_ne leads
  · refine ⟨mainSink, isMain, ?_⟩
    rw [bytesAt_foldl_deliver_of_own sound rfl mainOwn, accepts_mainLayer]
    · rfl
    · intro other isAccess
      rw [List.append_nil] at isAccess
      obtain ⟨sink, leads, own⟩ := isAccess_of_mem isAccess
      rw [own, ← leads]
      exact fun same => apart.mainSink?_ne same isMain
  · intro sink notAccess notMain
    refine bytesAt_foldl_deliver_of_elsewhere sound (fun layer member => ?_) events
    rcases List.mem_append.mp member with isAccess | isMainLayer
    · obtain ⟨accessSink, leads, own⟩ := isAccess_of_mem isAccess
      rw [own, ← leads]
      exact notAccess
    · rw [List.mem_singleton.mp isMainLayer, mainOwn, ← isMain]
      exact notMain

end LogHandles

namespace Subscriber

/-- Whatever events come: with logs kept apart, those of the access target go to the access log,
all others that the filter lets through to the main log, and none to both.  Any two filters
leave the access log the same. -/
theorem events_are_divided_between_logs {environment : Option String}
    {config : Config.LogSection} {store opened : LogStore} {subscriber : Subscriber}
    (sound : store.IsSound)
    (accepted : setUp environment config store = (.ok subscriber, opened))
    (apart : config.IsApart opened.storage) (console : String) (events : List Event) :
    let before : LogWorld := ⟨opened, console⟩
    let after := events.foldl subscriber.log before
    DividesEvents config (fun event => subscriber.filter.enables event.target event.level) events
      before after ∧
    (∀ enables, DividesEvents config enables events before
      (events.foldl (subscriber.handles.deliver enables) before)) ∧
    (∀ enables event,
      ((subscriber.handles.layers enables).filter (·.accepts event)).length ≤ 1) ∧
    ∀ otherEnvironment (other : Config.LogSection) otherSubscriber otherOpened,
      other.access = config.access → other.error = config.error →
      setUp otherEnvironment other store = (.ok otherSubscriber, otherOpened) →
      otherOpened = opened ∧ ∀ sink, config.accessSink? opened.storage = some sink →
        (events.foldl otherSubscriber.log before).bytesAt sink = after.bytesAt sink := by
  intro before after
  have soundThen : opened.IsSound := isSound_of_setUp sound accepted
  obtain ⟨servesAccess, servesError⟩ := serves_of_setUp accepted
  have divides (enables : Event → Bool) : DividesEvents config enables events before
      (events.foldl (subscriber.handles.deliver enables) before) :=
    @LogHandles.divides config subscriber.handles before soundThen servesAccess servesError apart
      enables events
  refine ⟨divides fun event => subscriber.filter.enables event.target event.level, divides,
    fun enables event => subscriber.handles.length_filter_accepts_le_one enables event, ?_⟩
  intro otherEnvironment other otherSubscriber otherOpened accessEq errorEq otherAccepted
  obtain ⟨sameHandles, sameStore⟩ := handles_eq_of_setUp accepted otherAccepted accessEq errorEq
  have otherDivides : DividesEvents config
      (fun event => otherSubscriber.filter.enables event.target event.level) events before
      (events.foldl otherSubscriber.log before) := by
    unfold log
    rw [sameHandles]
    exact divides fun event => otherSubscriber.filter.enables event.target event.level
  exact ⟨sameStore, fun sink isAccess => (otherDivides.bytesAt_access isAccess).trans
    ((divides _).bytesAt_access isAccess).symm⟩

/-- All events pass by a filter that is switched off, and the access log is written all the same. -/
theorem events_are_divided_between_logs_with_filter_off :
    let config : Config.LogSection := ⟨some "off", some "a", some "e"⟩
    let opened : LogStore := ⟨⟨[(["e"], .file 1), (["a"], .file 0)], #[[], []], []⟩,
      #[⟨"a", 0⟩, ⟨"e", 1⟩]⟩
    let subscriber : Subscriber := ⟨⟨[⟨none, none⟩]⟩, ⟨some ⟨0⟩, some ⟨1⟩⟩⟩
    let events : List Event := [⟨.error, "main", "lost", []⟩, ⟨.debug, accessTarget, "get", []⟩]
    Subscriber.setUp none config ⟨⟨[], #[], []⟩, #[]⟩ = (.ok subscriber, opened) ∧
      (events.foldl subscriber.log ⟨opened, ""⟩).bytesAt (.file 0) = Text.utf8 "DEBUG get\n" ∧
      (events.foldl subscriber.log ⟨opened, ""⟩).bytesAt (.file 1) = [] := by
  intro config opened subscriber events
  have reads : Filter.read? config.effectiveFilter = some subscriber.filter := by decide +kernel
  have accepted : Subscriber.setUp none config ⟨⟨[], #[], []⟩, #[]⟩ = (.ok subscriber, opened) := by
    simp only [Subscriber.setUp, Subscriber.chooseFilter, Option.bind_none, reads]
    rfl
  have accessAt : opened.storage.fileAt? "a" = some 0 := by decide +kernel
  have errorAt : opened.storage.fileAt? "e" = some 1 := by decide +kernel
  have apart : config.IsApart opened.storage := by
    rintro access error ⟨⟩ ⟨⟩
    rw [accessAt, errorAt]
    decide
  have sound : LogStore.IsSound ⟨⟨[], #[], []⟩, #[]⟩ :=
    ⟨nofun, fun log current isCurrent => by simp [LogStore.current?] at isCurrent⟩
  obtain ⟨divides, -, -, -⟩ := events_are_divided_between_logs sound accepted apart "" events
  have isAccess : config.accessSink? opened.storage = some (.file 0) :=
    congrArg (Option.map LogSink.file) accessAt
  have isMain : config.mainSink? opened.storage = some (.file 1) :=
    congrArg (Option.map LogSink.file) errorAt
  obtain ⟨sink, isSink, mainEq⟩ := divides.main
  cases isSink.symm.trans isMain
  exact ⟨accepted, (divides.bytesAt_access isAccess).trans (by decide +kernel),
    mainEq.trans (by decide +kernel)⟩

end Subscriber

end CacheRouting
