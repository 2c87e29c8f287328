import CacheRouting.Journal.Subscriber
import CacheRouting.Proofs.Journal.LogFile

/-!
# Reopening both logs

A log file that is reopened is at the file that its path leads to, and takes nothing from any
other log file.  The access log is reopened first, and if its path cannot be opened the other
log is left where it is, even if its own path could be opened.
-/

namespace CacheRouting

namespace LogStore

/-- What reopening is for: a log file whose path can be opened is at the file there, and any
other is as it was. -/
structure IsReopened (before after : LogStore) (log : LogFile) (current : OpenLog) : Prop where
  isAtPath : before.storage.CanOpen current.path → after.IsAtPath log current.path
  stays : ¬ before.storage.CanOpen current.path → after.current? log = some current

structure Reopens (store : LogStore) (log : LogFile) (path : String) (next : LogStore) : Prop where
  wasTurned : ∃ file, store.current? log = some ⟨path, file⟩
  couldOpen : store.storage.CanOpen path
  isAtPath : next.IsAtPath log path
  others : ∀ other, other ≠ log → next.current? other = store.current? other
  added : store.storage.Extends next.storage

variable {store next : LogStore} {log other : LogFile} {current otherCurrent : OpenLog}
  {path otherPath : String}

theorem exists_reopens (isCurrent : store.current? log = some current)
    (canOpen : store.storage.CanOpen current.path) :
    ∃ next, store.reopen log = .ok next ∧ store.Reopens log current.path next := by
  obtain ⟨⟨file, storage⟩, opens⟩ := canOpen
  obtain ⟨known, -⟩ := Array.getElem?_eq_some_iff.mp isCurrent
  refine ⟨⟨storage, store.slots.setIfInBounds log.slot ⟨current.path, file⟩⟩, ?_,
    ⟨current.file, isCurrent⟩, ⟨_, opens⟩, ⟨file, ?_, Storage.fileAt?_openAppend opens⟩, ?_,
    Storage.extends_openAppend opens⟩
  · rw [reopen_eq_swap isCurrent, swap, opens]
    rfl
  · rw [current?, Array.getElem?_setIfInBounds_self_of_lt known]
  · intro other isOther
    have otherSlot : log.slot ≠ other.slot := fun same => isOther (congrArg LogFile.mk same).symm
    rw [current?, Array.getElem?_setIfInBounds_ne otherSlot, current?]

theorem exists_reopen_eq_error (isCurrent : store.current? log = some current)
    (cannotOpen : ¬ store.storage.CanOpen current.path) :
    ∃ error, store.reopen log = .error error := by
  rw [reopen_eq_swap isCurrent, swap]
  cases opens : store.storage.openAppend current.path with
  | error error => exact ⟨error, rfl⟩
  | ok opened => exact absurd ⟨opened, opens⟩ cannotOpen

namespace Reopens

variable (reopens : store.Reopens log path next)

include reopens

theorem exists_current (isCurrent : store.current? other = some otherCurrent) :
    ∃ file, next.current? other = some ⟨otherCurrent.path, file⟩ := by
  by_cases same : other = log
  · subst same
    obtain ⟨file, wasCurrent⟩ := reopens.wasTurned
    cases isCurrent.symm.trans wasCurrent
    obtain ⟨file, isCurrent, -⟩ := reopens.isAtPath
    exact ⟨file, isCurrent⟩
  · exact ⟨otherCurrent.file, (reopens.others other same).trans isCurrent⟩

theorem current_of_not_canOpen (isCurrent : store.current? other = some otherCurrent)
    (cannotOpen : ¬ store.storage.CanOpen otherCurrent.path) :
    next.current? other = some otherCurrent := by
  by_cases same : other = log
  · subst same
    obtain ⟨file, wasCurrent⟩ := reopens.wasTurned
    cases isCurrent.symm.trans wasCurrent
    exact absurd reopens.couldOpen cannotOpen
  · exact (reopens.others other same).trans isCurrent

/-- A log file that is where its path leads stays there, whichever is reopened. -/
theorem isAtPath_of_isAtPath (stood : store.IsAtPath other otherPath) :
    next.IsAtPath other otherPath := by
  obtain ⟨otherFile, isCurrent, leads⟩ := stood
  by_cases same : other = log
  · subst same
    obtain ⟨file, wasCurrent⟩ := reopens.wasTurned
    cases isCurrent.symm.trans wasCurrent
    exact reopens.isAtPath
  · exact ⟨otherFile, (reopens.others other same).trans isCurrent, reopens.added.fileAt?_eq leads⟩

end Reopens

end LogStore

namespace LogHandles

section Both

variable {handles : LogHandles} {access error : LogFile} {store : LogStore}
  {accessCurrent errorCurrent : OpenLog}

theorem exists_reopen_of_not_canOpen (hasAccess : handles.access = some access)
    (isAccess : store.current? access = some accessCurrent)
    (cannotOpen : ¬ store.storage.CanOpen accessCurrent.path) :
    ∃ failure, handles.reopen store = (some failure, store) := by
  obtain ⟨failure, fails⟩ := LogStore.exists_reopen_eq_error isAccess cannotOpen
  exact ⟨failure, by rw [reopen, hasAccess, reopenHandle, fails]⟩

/-- Once the access log is reopened, both logs are, as far as their paths can be opened. -/
theorem reopen_of_canOpen (hasAccess : handles.access = some access)
    (hasError : handles.error = some error)
    (isAccess : store.current? access = some accessCurrent)
    (isError : store.current? error = some errorCurrent)
    (canOpen : store.storage.CanOpen accessCurrent.path) :
    (handles.reopen store).2.IsAtPath access accessCurrent.path ∧
      store.IsReopened (handles.reopen store).2 error errorCurrent ∧
      ((handles.reopen store).1 = none ↔ store.storage.CanOpen errorCurrent.path) := by
  obtain ⟨between, accessReopened, reopensAccess⟩ := LogStore.exists_reopens isAccess canOpen
  obtain ⟨errorFile, isErrorThen⟩ := reopensAccess.exists_current isError
  have outcome : handles.reopen store = reopenHandle between (some error) := by
    rw [reopen, hasAccess, reopenHandle, accessReopened, hasError]
  have sameWay : between.storage.CanOpen errorCurrent.path ↔
      store.storage.CanOpen errorCurrent.path := reopensAccess.added.canOpen_iff
  by_cases canOpenError : store.storage.CanOpen errorCurrent.path
  · obtain ⟨next, errorReopened, reopensError⟩ :=
      LogStore.exists_reopens isErrorThen (sameWay.mpr canOpenError)
    have ended : handles.reopen store = (none, next) := by
      rw [outcome, reopenHandle, errorReopened]
    rw [ended]
    exact ⟨reopensError.isAtPath_of_isAtPath reopensAccess.isAtPath,
      ⟨fun _ => reopensError.isAtPath, fun cannotOpen => absurd canOpenError cannotOpen⟩,
      ⟨fun _ => canOpenError, fun _ => rfl⟩⟩
  · obtain ⟨failure, fails⟩ :=
      LogStore.exists_reopen_eq_error isErrorThen (mt sameWay.mp canOpenError)
    have ended : handles.reopen store = (some failure, between) := by
      rw [outcome, reopenHandle, fails]
    rw [ended]
    exact ⟨reopensAccess.isAtPath,
      ⟨fun canOpen => absurd canOpen canOpenError,
        reopensAccess.current_of_not_canOpen isError⟩,
      ⟨nofun, fun canOpen => absurd canOpen canOpenError⟩⟩

end Both

/-- The access log is reopened as it should be, whatever becomes of the other log, and there is
no failure exactly if both paths can be opened.  If the path of the access log cannot be
opened nothing happens at all, so that the other log is as it should be exactly if the access
log was reopened, if its own path cannot be opened either, or if it is at its path already. -/
theorem error_log_waits_for_access_log {handles : LogHandles} {access error : LogFile}
    {store : LogStore} {accessCurrent errorCurrent : OpenLog}
    (hasAccess : handles.access = some access) (hasError : handles.error = some error)
    (isAccess : store.current? access = some accessCurrent)
    (isError : store.current? error = some errorCurrent) :
    let outcome := handles.reopen store
    store.IsReopened outcome.2 access accessCurrent ∧
    (store.IsReopened outcome.2 error errorCurrent ↔
      store.storage.CanOpen accessCurrent.path ∨ ¬ store.storage.CanOpen errorCurrent.path ∨
        store.IsAtPath error errorCurrent.path) ∧
    (outcome.1 = none ↔
      store.storage.CanOpen accessCurrent.path ∧ store.storage.CanOpen errorCurrent.path) ∧
    (¬ store.storage.CanOpen accessCurrent.path → outcome.2 = store) := by
  intro outcome
  by_cases canOpen : store.storage.CanOpen accessCurrent.path
  · obtain ⟨accessAtPath, errorReopened, noFailure⟩ :=
      reopen_of_canOpen hasAccess hasError isAccess isError canOpen
    refine ⟨⟨fun _ => accessAtPath, fun cannotOpen => absurd canOpen cannotOpen⟩,
      iff_of_true errorReopened (.inl canOpen), ?_, fun cannotOpen => absurd canOpen cannotOpen⟩
    rw [noFailure, and_iff_right canOpen]
  · obtain ⟨failure, ended⟩ := exists_reopen_of_not_canOpen hasAccess isAccess canOpen
    have sameStore : outcome.2 = store := congrArg Prod.snd ended
    have failed : outcome.1 = some failure := congrArg Prod.fst ended
    rw [sameStore, failed]
    refine ⟨⟨fun couldOpen => absurd couldOpen canOpen, fun _ => isAccess⟩, ?_,
      iff_of_false nofun fun both => canOpen both.1, fun _ => rfl⟩
    rw [or_iff_right canOpen, ← imp_iff_not_or]
    exact ⟨fun reopened => reopened.isAtPath, fun stands => ⟨stands, fun _ => isError⟩⟩

/-- Two logs whose files have been moved aside are reopened at new files. -/
theorem error_log_waits_for_access_log_after_rotation :
    let handles : LogHandles := ⟨some ⟨0⟩, some ⟨1⟩⟩
    let store : LogStore :=
      ⟨⟨[(["a.1"], .file 0), (["e.1"], .file 1)], #[[], []], []⟩, #[⟨"a", 0⟩, ⟨"e", 1⟩]⟩
    store.storage.CanOpen "a" ∧ store.storage.CanOpen "e" ∧
      (handles.reopen store).1 = none ∧ (handles.reopen store).2.IsAtPath ⟨0⟩ "a" ∧
      (handles.reopen store).2.IsAtPath ⟨1⟩ "e" := by
  intro handles store
  have canOpenAccess : store.storage.CanOpen "a" := ⟨_, rfl⟩
  have canOpenError : store.storage.CanOpen "e" := ⟨_, rfl⟩
  obtain ⟨accessReopened, errorReopened, noFailure, -⟩ :=
    @error_log_waits_for_access_log handles ⟨0⟩ ⟨1⟩ store ⟨"a", 0⟩ ⟨"e", 1⟩ rfl rfl rfl rfl
  exact ⟨canOpenAccess, canOpenError, noFailure.mpr ⟨canOpenAccess, canOpenError⟩,
    accessReopened.isAtPath canOpenAccess,
    (errorReopened.mpr (.inl canOpenAccess)).isAtPath canOpenError⟩

/-- A directory stands at the path of the access log, and the file of the other log has been
moved aside.  Its path can be opened, but it is left at the file that was moved. -/
theorem error_log_is_left_aside :
    let handles : LogHandles := ⟨some ⟨0⟩, some ⟨1⟩⟩
    let store : LogStore :=
      ⟨⟨[(["a"], .directory), (["e.1"], .file 1)], #[[], []], []⟩, #[⟨"a", 0⟩, ⟨"e", 1⟩]⟩
    store.storage.CanOpen "e" ∧ ¬ (handles.reopen store).2.IsAtPath ⟨1⟩ "e" ∧
      ¬ store.IsReopened (handles.reopen store).2 ⟨1⟩ ⟨"e", 1⟩ := by
  intro handles store
  have canOpen : store.storage.CanOpen "e" := ⟨_, rfl⟩
  have leadsNowhere : (handles.reopen store).2.storage.fileAt? "e" = none := by decide +kernel
  have leftAside : ¬ (handles.reopen store).2.IsAtPath ⟨1⟩ "e" := by
    rintro ⟨file, -, leads⟩
    cases leadsNowhere.symm.trans leads
  exact ⟨canOpen, leftAside, fun reopened => leftAside (reopened.isAtPath canOpen)⟩

end LogHandles

end CacheRouting
