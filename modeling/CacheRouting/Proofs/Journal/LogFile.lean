import CacheRouting.Journal.LogFile
import CacheRouting.Proofs.Journal.Storage
import Mathlib.Data.List.Induction

/-!
# Log files in use

A log file is copied, gives out writers, is turned to other paths and reopened, while
others rename and remove what the paths lead to.  Whatever the order, all copies have
the same file open, each writer keeps the file that was open when it was made, and
each file grows by what its writers write, once and in order.
-/

namespace CacheRouting

namespace LogStore

variable {store next : LogStore} {log : LogFile} {current : OpenLog} {path : String}

/-- What a successful swap comes to: the file at the path is open, and nothing has happened to
any bytes. -/
theorem exists_of_swap (swaps : store.swap log path = .ok next) :
    ∃ file, store.storage.openAppend path = .ok (file, next.storage) ∧
      next.slots = store.slots.setIfInBounds log.slot ⟨path, file⟩ := by
  unfold swap at swaps
  obtain ⟨⟨file, storage⟩, opens, turned⟩ := Storage.exists_of_bind_eq_ok swaps
  cases turned
  exact ⟨file, opens, rfl⟩

/-- A log file that is opened is one more beside those that were open. -/
theorem exists_of_openLog (opens : store.openLog path = .ok (log, next)) :
    ∃ file, store.storage.openAppend path = .ok (file, next.storage) ∧
      store.current? log = none ∧
      ∀ other, next.current? other =
        if other = log then some ⟨path, file⟩ else store.current? other := by
  unfold openLog at opens
  obtain ⟨⟨file, storage⟩, opensPath, made⟩ := Storage.exists_of_bind_eq_ok opens
  cases made
  refine ⟨file, opensPath, Array.getElem?_eq_none (Nat.le_refl _), fun other => ?_⟩
  rw [current?, Array.getElem?_push]
  exact if_congr ⟨congrArg LogFile.mk, congrArg LogFile.slot⟩ rfl rfl

theorem reopen_eq_swap (isCurrent : store.current? log = some current) :
    store.reopen log = store.swap log current.path := by
  rw [reopen, pathOf, isCurrent]
  rfl

/-- The log file is turned to this path, and open at the file that the path leads to. -/
def IsAtPath (store : LogStore) (log : LogFile) (path : String) : Prop :=
  ∃ file, store.current? log = some ⟨path, file⟩ ∧ store.storage.fileAt? path = some file

end LogStore

/-- One thing that is done with a log file, or by others around it.  Copies and writers are
given by their numbers. -/
inductive LogAction
  | copy (handle : Nat)
  | makeWriter (handle : Nat)
  | write (writer : Nat) (text : String)
  | swap (handle : Nat) (path : String)
  | reopen (handle : Nat)
  | rename (source target : String)
  | remove (path : String)
  | makeDirectory (path : String)

/-- A log file in use: where it is stored, its copies, and the writers it has given out. -/
structure LogSession where
  store : LogStore
  handles : List LogFile
  writers : List LogWriter

namespace LogSession

def begin (log : LogFile) (store : LogStore) : LogSession := ⟨store, [log], []⟩

/-- Go on with the outcome of an attempt.  One that fails changes nothing. -/
def attempt (session : LogSession) : Except StorageError LogStore → LogSession
  | .ok store => { session with store }
  | .error _ => session

def attemptStorage (session : LogSession) (outcome : Except StorageError Storage) : LogSession :=
  session.attempt (outcome.map fun storage => { session.store with storage })

def act (session : LogSession) : LogAction → LogSession
  | .copy handle => { session with handles := session.handles ++ session.handles[handle]?.toList }
  | .makeWriter handle =>
      { session with
        writers := session.writers ++
          (session.handles[handle]?.bind session.store.writer?).toList }
  | .write writer text =>
      match session.writers[writer]? with
      | some writer => { session with store := session.store.write writer text }
      | none => session
  | .swap handle path =>
      match session.handles[handle]? with
      | some log => session.attempt (session.store.swap log path)
      | none => session
  | .reopen handle =>
      match session.handles[handle]? with
      | some log => session.attempt (session.store.reopen log)
      | none => session
  | .rename source target => session.attemptStorage (session.store.storage.rename source target)
  | .remove path => session.attemptStorage (session.store.storage.remove path)
  | .makeDirectory path => session.attemptStorage (session.store.storage.makeDirectory path)

def run (session : LogSession) (actions : List LogAction) : LogSession :=
  actions.foldl act session

theorem run_concat (session : LogSession) (actions : List LogAction) (action : LogAction) :
    session.run (actions ++ [action]) = (session.run actions).act action :=
  List.foldl_append

/-- The files that are written to in an action, each with the bytes. -/
def deliver (session : LogSession) : LogAction → List (Nat × List UInt8)
  | .write writer text =>
      (session.writers[writer]?.map fun writer => (writer.file, Text.utf8 text)).toList
  | _ => []

def deliveries (session : LogSession) : List LogAction → List (Nat × List UInt8)
  | [] => []
  | action :: rest => session.deliver action ++ (session.act action).deliveries rest

def bytesFor (file : Nat) (deliveries : List (Nat × List UInt8)) : List UInt8 :=
  deliveries.flatMap fun delivery => if delivery.1 = file then delivery.2 else []

theorem bytesFor_append (file : Nat) (first second : List (Nat × List UInt8)) :
    bytesFor file (first ++ second) = bytesFor file first ++ bytesFor file second :=
  List.flatMap_append

/-- All copies have the same file open at the same path. -/
def Shares (session : LogSession) (current : OpenLog) : Prop :=
  ∀ handle ∈ session.handles, session.store.current? handle = some current

/-- What stays true of a log file in use: its copies are the same, and its files have been made. -/
structure IsKept (log : LogFile) (session : LogSession) : Prop where
  sound : session.store.storage.IsSound
  handles_eq : ∀ handle ∈ session.handles, handle = log
  isOpen : ∃ current, session.store.current? log = some current ∧
    current.file < session.store.storage.contents.size
  writers : ∀ writer ∈ session.writers, writer.file < session.store.storage.contents.size

variable {log : LogFile} {session next : LogSession} {action : LogAction} {current : OpenLog}

theorem IsKept.shares (kept : session.IsKept log) (isCurrent : session.store.current? log = some current) :
    session.Shares current := by
  intro handle member
  rw [kept.handles_eq handle member]
  exact isCurrent

theorem IsKept.exists_shares (kept : session.IsKept log) : ∃ current, session.Shares current := by
  obtain ⟨current, isCurrent, -⟩ := kept.isOpen
  exact ⟨current, kept.shares isCurrent⟩

theorem isKept_begin {store opened : LogStore} {path : String} (sound : store.storage.IsSound)
    (isOpen : store.openLog path = .ok (log, opened)) : (begin log opened).IsKept log := by
  obtain ⟨file, opens, -, currentEq⟩ := LogStore.exists_of_openLog isOpen
  have soundNow := sound.openAppend opens
  refine ⟨soundNow, fun handle member => List.mem_singleton.mp member, ⟨⟨path, file⟩, ?_, ?_⟩, nofun⟩
  · exact (currentEq log).trans (if_pos rfl)
  · exact soundNow.lt_size_of_fileAt? (Storage.fileAt?_openAppend opens)

theorem IsKept.of_swap (kept : session.IsKept log) {path : String} {next : LogStore}
    (swaps : session.store.swap log path = .ok next) : { session with store := next }.IsKept log := by
  obtain ⟨file, opens, slotsEq⟩ := LogStore.exists_of_swap swaps
  have soundNow := kept.sound.openAppend opens
  obtain ⟨current, isCurrent, -⟩ := kept.isOpen
  obtain ⟨known, -⟩ := Array.getElem?_eq_some_iff.mp isCurrent
  refine ⟨soundNow, kept.handles_eq, ⟨⟨path, file⟩, ?_, ?_⟩, ?_⟩
  · rw [LogStore.current?, slotsEq, Array.getElem?_setIfInBounds_self_of_lt known]
  · exact soundNow.lt_size_of_fileAt? (Storage.fileAt?_openAppend opens)
  · exact fun writer member =>
      Nat.lt_of_lt_of_le (kept.writers writer member) (Storage.size_le_openAppend opens)

inductive Effect (log : LogFile) (session : LogSession) : LogAction → LogSession → Prop
  /-- There is no such copy or writer, or the attempt has failed. -/
  | stays {action : LogAction} (silent : session.deliver action = []) :
      Effect log session action session
  | copies (handle : Nat) :
      Effect log session (.copy handle) { session with handles := session.handles ++ [log] }
  | makes (handle : Nat) {current : OpenLog} (isCurrent : session.store.current? log = some current) :
      Effect log session (.makeWriter handle)
        { session with writers := session.writers ++ [⟨current.file⟩] }
  | writes {number : Nat} {writer : LogWriter} (isWriter : session.writers[number]? = some writer)
      (text : String) :
      Effect log session (.write number text)
        { session with store := session.store.write writer text }
  | swaps {action : LogAction} {path : String} {next : LogStore}
      (silent : session.deliver action = []) (swaps : session.store.swap log path = .ok next) :
      Effect log session action { session with store := next }
  | rearranges {action : LogAction} {storage : Storage} (silent : session.deliver action = [])
      (rearranges : session.store.storage.Rearranges storage) :
      Effect log session action { session with store := { session.store with storage } }

theorem effect_attempt_swap {action : LogAction} (silent : session.deliver action = [])
    (path : String) :
    session.Effect log action (session.attempt (session.store.swap log path)) := by
  cases swaps : session.store.swap log path with
  | error error => exact .stays silent
  | ok next => exact .swaps silent swaps

theorem effect_attemptStorage {action : LogAction} {outcome : Except StorageError Storage}
    (silent : session.deliver action = [])
    (rearranges : ∀ storage, outcome = .ok storage → session.store.storage.Rearranges storage) :
    session.Effect log action (session.attemptStorage outcome) := by
  cases outcome with
  | error error => exact .stays silent
  | ok storage => exact .rearranges silent (rearranges storage rfl)

theorem IsKept.effect (kept : session.IsKept log) (action : LogAction) :
    session.Effect log action (session.act action) := by
  have isLog {handle : Nat} {source : LogFile} (isSource : session.handles[handle]? = some source) :
      source = log := kept.handles_eq source (List.mem_of_getElem? isSource)
  cases action with
  | copy handle =>
      cases isSource : session.handles[handle]? with
      | none =>
          rw [act, isSource, Option.toList_none, List.append_nil]
          exact .stays rfl
      | some source =>
          rw [act, isSource, isLog isSource]
          exact .copies handle
  | makeWriter handle =>
      cases isSource : session.handles[handle]? with
      | none =>
          rw [act, isSource, Option.bind_none, Option.toList_none, List.append_nil]
          exact .stays rfl
      | some source =>
          obtain ⟨current, isCurrent, -⟩ := kept.isOpen
          rw [act, isSource, isLog isSource, Option.bind_some, LogStore.writer?, isCurrent]
          exact .makes handle isCurrent
  | write number text =>
      cases isWriter : session.writers[number]? with
      | none =>
          rw [act, isWriter]
          exact .stays (by rw [deliver, isWriter]; rfl)
      | some writer =>
          rw [act, isWriter]
          exact .writes isWriter text
  | swap handle path =>
      cases isSource : session.handles[handle]? with
      | none =>
          rw [act, isSource]
          exact .stays rfl
      | some source =>
          rw [act, isSource, isLog isSource]
          exact effect_attempt_swap rfl path
  | reopen handle =>
      cases isSource : session.handles[handle]? with
      | none =>
          rw [act, isSource]
          exact .stays rfl
      | some source =>
          rw [act, isSource, isLog isSource]
          exact effect_attempt_swap rfl _
  | rename source target =>
      exact effect_attemptStorage rfl fun _ renames => Storage.rearranges_of_rename renames
  | remove path =>
      exact effect_attemptStorage rfl fun _ removes => Storage.rearranges_of_remove removes
  | makeDirectory path =>
      exact effect_attemptStorage rfl fun _ makes => Storage.rearranges_of_makeDirectory makes

theorem IsKept.setStorage (kept : session.IsKept log) {storage : Storage} (sound : storage.IsSound)
    (sizeEq : storage.contents.size = session.store.storage.contents.size) :
    { session with store := { session.store with storage } }.IsKept log where
  sound := sound
  handles_eq := kept.handles_eq
  isOpen := sizeEq ▸ kept.isOpen
  writers := sizeEq ▸ kept.writers

theorem IsKept.of_effect (kept : session.IsKept log) (effect : session.Effect log action next) :
    next.IsKept log := by
  cases effect with
  | stays => exact kept
  | copies handle =>
      refine ⟨kept.sound, fun copied member => ?_, kept.isOpen, kept.writers⟩
      rcases List.mem_append.mp member with old | isNew
      · exact kept.handles_eq copied old
      · exact List.mem_singleton.mp isNew
  | makes handle isCurrent =>
      refine ⟨kept.sound, kept.handles_eq, kept.isOpen, fun writer member => ?_⟩
      rcases List.mem_append.mp member with old | isNew
      · exact kept.writers writer old
      · obtain ⟨current, isOpen, known⟩ := kept.isOpen
        cases isCurrent.symm.trans isOpen
        rw [List.mem_singleton.mp isNew]
        exact known
  | writes isWriter text => exact kept.setStorage kept.sound.append Array.size_modify
  | swaps silent swaps => exact kept.of_swap swaps
  | rearranges silent rearranges =>
      obtain ⟨contentsEq, isSound⟩ := rearranges
      exact kept.setStorage (isSound kept.sound) (by rw [contentsEq])

theorem IsKept.act (kept : session.IsKept log) (action : LogAction) :
    (session.act action).IsKept log :=
  kept.of_effect (kept.effect action)

theorem IsKept.run (kept : session.IsKept log) (actions : List LogAction) :
    (session.run actions).IsKept log := by
  induction actions generalizing session with
  | nil => exact kept
  | cons action actions ih => exact ih (kept.act action)

/-- A writer is given out when one is made, for the file that is open then, and at no other time. -/
theorem IsKept.writers_of_effect (kept : session.IsKept log)
    (effect : session.Effect log action next) :
    next.writers = session.writers ∨
      ∃ handle current, action = .makeWriter handle ∧ session.Shares current ∧
        next.writers = session.writers ++ [⟨current.file⟩] := by
  cases effect with
  | makes handle isCurrent => exact Or.inr ⟨handle, _, rfl, kept.shares isCurrent, rfl⟩
  | stays => exact Or.inl rfl
  | copies handle => exact Or.inl rfl
  | writes isWriter text => exact Or.inl rfl
  | swaps silent swaps => exact Or.inl rfl
  | rearranges silent rearranges => exact Or.inl rfl

/-- Each writer goes back to when it was made, and has the file that was open then. -/
theorem IsKept.exists_makeWriter (kept : session.IsKept log) (noneYet : session.writers = [])
    (actions : List LogAction) {number : Nat} {writer : LogWriter}
    (isWriter : (session.run actions).writers[number]? = some writer) :
    ∃ before handle after current, actions = before ++ .makeWriter handle :: after ∧
      (session.run before).writers.length = number ∧ (session.run before).Shares current ∧
      writer.file = current.file := by
  induction actions using List.reverseRecOn with
  | nil => simp [LogSession.run, noneYet] at isWriter
  | append_singleton actions action ih =>
      have earlier (isOld : (session.run actions).writers[number]? = some writer) :
          ∃ before handle after current,
            actions ++ [action] = before ++ .makeWriter handle :: after ∧
            (session.run before).writers.length = number ∧ (session.run before).Shares current ∧
            writer.file = current.file := by
        obtain ⟨before, handle, after, current, actionsEq, length, shares, fileEq⟩ := ih isOld
        refine ⟨before, handle, after ++ [action], current, ?_, length, shares, fileEq⟩
        rw [actionsEq, List.append_assoc, List.cons_append]
      rw [run_concat] at isWriter
      have keptThen := kept.run actions
      rcases keptThen.writers_of_effect (keptThen.effect action) with
        same | ⟨handle, current, isMake, shares, writersEq⟩
      · exact earlier (same ▸ isWriter)
      · rw [writersEq, List.getElem?_append] at isWriter
        split at isWriter
        · exact earlier isWriter
        · next notOld =>
          rw [List.getElem?_singleton] at isWriter
          split at isWriter
          · cases isWriter
            exact ⟨actions, handle, [], current, by rw [isMake], by omega, shares, rfl⟩
          · cases isWriter

/-- In one action each file grows by what is written to it, and no file loses anything. -/
theorem IsKept.bytesOf_of_effect (kept : session.IsKept log)
    (effect : session.Effect log action next) (file : Nat) :
    next.store.storage.bytesOf file =
      session.store.storage.bytesOf file ++ bytesFor file (session.deliver action) := by
  have silently {storage : Storage} {action : LogAction} (silent : session.deliver action = [])
      (same : storage.bytesOf file = session.store.storage.bytesOf file) :
      storage.bytesOf file =
        session.store.storage.bytesOf file ++ bytesFor file (session.deliver action) := by
    rw [same, silent]
    exact (List.append_nil _).symm
  cases effect with
  | stays silent => exact silently silent rfl
  | copies handle => exact silently rfl rfl
  | makes handle isCurrent => exact silently rfl rfl
  | writes isWriter text =>
      have known := kept.writers _ (List.mem_of_getElem? isWriter)
      simp only [LogStore.write, Storage.bytesOf_append known, deliver, isWriter, bytesFor,
        Option.map_some, Option.toList_some, List.flatMap_cons, List.flatMap_nil, List.append_nil]
  | swaps silent swaps =>
      obtain ⟨opened, opens, -⟩ := LogStore.exists_of_swap swaps
      exact silently silent (Storage.bytesOf_openAppend opens file)
  | rearranges silent rearranges => exact silently silent (rearranges.bytesOf_eq file)

theorem IsKept.bytesOf_run (kept : session.IsKept log) (actions : List LogAction) (file : Nat) :
    (session.run actions).store.storage.bytesOf file =
      session.store.storage.bytesOf file ++ bytesFor file (session.deliveries actions) := by
  induction actions generalizing session with
  | nil => exact (List.append_nil _).symm
  | cons action actions ih =>
      have grown := kept.bytesOf_of_effect (kept.effect action) file
      rw [deliveries, bytesFor_append, ← List.append_assoc, ← grown]
      exact ih (kept.act action)

/-- A log file has been turned to a path, with all its copies: to the file that stands there, or
to a new one that nothing led or wrote to.  No bytes have changed, and no writer. -/
structure Turns (session : LogSession) (target : String) (file : Nat) (next : LogSession) : Prop where
  shares : next.Shares ⟨target, file⟩
  makes : ∀ handle ∈ next.handles, next.store.writer? handle = some ⟨file⟩
  leads : next.store.storage.fileAt? target = some file
  stood_or_new : session.store.storage.fileAt? target = some file ∨
    next.store.storage.bytesOf file = [] ∧ session.store.storage.fileAt? target = none ∧
      (∀ path, session.store.storage.fileAt? path ≠ some file) ∧
      ∀ writer ∈ session.writers, writer.file ≠ file
  bytes_eq : ∀ other, next.store.storage.bytesOf other = session.store.storage.bytesOf other
  handles_eq : next.handles = session.handles
  writers_eq : next.writers = session.writers

theorem IsKept.exists_turns (kept : session.IsKept log) {target : String} {next : LogStore}
    (swaps : session.store.swap log target = .ok next) :
    ∃ file, session.Turns target file { session with store := next } := by
  obtain ⟨file, opens, slotsEq⟩ := LogStore.exists_of_swap swaps
  have keptThen := kept.of_swap swaps
  obtain ⟨current, isCurrent, -⟩ := kept.isOpen
  obtain ⟨known, -⟩ := Array.getElem?_eq_some_iff.mp isCurrent
  have isOpen : next.current? log = some ⟨target, file⟩ := by
    rw [LogStore.current?, slotsEq, Array.getElem?_setIfInBounds_self_of_lt known]
  have shares := keptThen.shares isOpen
  refine ⟨file, shares, ?_, Storage.fileAt?_openAppend opens, ?_, Storage.bytesOf_openAppend opens, rfl,
    rfl⟩
  · intro handle member
    rw [LogStore.writer?, shares handle member]
    rfl
  · rcases Storage.openAppend_cases opens with ⟨leads, -⟩ | ⟨nowhere, -, fresh, -⟩
    · exact Or.inl leads
    · refine Or.inr ⟨?_, nowhere, ?_, ?_⟩
      · rw [Storage.bytesOf_openAppend opens, fresh]
        simp [Storage.bytesOf]
      · intro path leads
        exact Nat.ne_of_lt (kept.sound.lt_size_of_fileAt? leads) fresh
      · exact fun writer member => fun same => Nat.ne_of_lt (kept.writers writer member) (same.trans fresh)

theorem act_swap {number : Nat} {handle : LogFile} (isHandle : session.handles[number]? = some handle)
    (target : String) :
    session.act (.swap number target) = session.attempt (session.store.swap handle target) := by
  rw [LogSession.act, isHandle]

theorem act_reopen {number : Nat} {handle : LogFile} (shares : session.Shares current)
    (isHandle : session.handles[number]? = some handle) :
    session.act (.reopen number) = session.act (.swap number current.path) ∧
      session.store.reopen handle = session.store.swap handle current.path := by
  have reopens : session.store.reopen handle = session.store.swap handle current.path :=
    LogStore.reopen_eq_swap (shares handle (List.mem_of_getElem? isHandle))
  exact ⟨by rw [act_swap isHandle, LogSession.act, isHandle, ← reopens], reopens⟩

/-- Whatever is done with a log file and to the paths around it: all copies share what is open,
each writer has the file that was open when it was made, and each file has what it had at first
and then, in order and once, what its writers have written.  Turning the log file to a path
opens the file there for all copies and changes no bytes, and failing to changes nothing;
reopening is turning to the path that is open. -/
theorem writers_keep_their_files {store opened : LogStore} {path : String} {log : LogFile}
    (sound : store.storage.IsSound) (isOpen : store.openLog path = .ok (log, opened))
    (actions : List LogAction) :
    let start := begin log opened
    let session := start.run actions
    (∃ current, session.Shares current) ∧
    (∀ number writer, session.writers[number]? = some writer →
      ∃ before handle after current, actions = before ++ .makeWriter handle :: after ∧
        (start.run before).writers.length = number ∧ (start.run before).Shares current ∧
        writer.file = current.file) ∧
    (∀ file, session.store.storage.bytesOf file =
      start.store.storage.bytesOf file ++ bytesFor file (start.deliveries actions)) ∧
    ∀ number handle, session.handles[number]? = some handle →
      (∀ target next, session.store.swap handle target = .ok next →
        ∃ file, session.Turns target file (session.act (.swap number target))) ∧
      (∀ target error, session.store.swap handle target = .error error →
        session.act (.swap number target) = session) ∧
      ∀ current, session.Shares current →
        session.act (.reopen number) = session.act (.swap number current.path) ∧
          session.store.reopen handle = session.store.swap handle current.path := by
  intro start session
  have keptStart : start.IsKept log := isKept_begin sound isOpen
  have kept : session.IsKept log := keptStart.run actions
  refine ⟨kept.exists_shares, fun number writer => keptStart.exists_makeWriter rfl actions,
    keptStart.bytesOf_run actions, ?_⟩
  intro number handle isHandle
  have isLog : handle = log := kept.handles_eq handle (List.mem_of_getElem? isHandle)
  refine ⟨?_, ?_, fun current shares => act_reopen shares isHandle⟩
  · intro target next swaps
    rw [act_swap isHandle, swaps]
    exact kept.exists_turns (isLog ▸ swaps)
  · intro target error fails
    rw [act_swap isHandle, fails]
    rfl

def oneFile : Storage := ⟨[(["a"], .file 0)], #["0".toUTF8.toList], []⟩

def rotation : List LogAction :=
  [.makeWriter 0, .copy 0, .rename "a" "b", .write 0 "1", .reopen 1, .makeWriter 0, .write 0 "2",
    .write 1 "3"]

/-- The writer that was out goes on with the file that has been moved, and a directory that is
missing cannot be turned to. -/
theorem writers_keep_their_files_in_rotation :
    let start := begin ⟨0⟩ ⟨oneFile, #[⟨"a", 0⟩]⟩
    let session := start.run rotation
    oneFile.IsSound ∧ LogStore.openLog ⟨oneFile, #[]⟩ "a" = .ok (⟨0⟩, ⟨oneFile, #[⟨"a", 0⟩]⟩) ∧
      session.store.storage.bytesOf 0 = "012".toUTF8.toList ∧
      session.store.storage.bytesOf 1 = "3".toUTF8.toList ∧
      session.store.current? ⟨0⟩ = some ⟨"a", 1⟩ ∧
      session.act (.swap 1 "c/d") = session := by
  have sound : oneFile.IsSound := by
    intro entry member number isFile
    obtain rfl := List.mem_singleton.mp member
    cases isFile
    decide
  have isOpen : LogStore.openLog ⟨oneFile, #[]⟩ "a" =
      .ok (⟨0⟩, ⟨oneFile, #[⟨"a", 0⟩]⟩) := rfl
  obtain ⟨-, -, bytes, turns⟩ := writers_keep_their_files sound isOpen rotation
  refine ⟨sound, isOpen, (bytes 0).trans (by decide +kernel), (bytes 1).trans (by decide +kernel),
    by decide +kernel, ?_⟩
  exact (turns 1 ⟨0⟩ (by decide +kernel)).2.1 "c/d" .notFound rfl

end LogSession

end CacheRouting
