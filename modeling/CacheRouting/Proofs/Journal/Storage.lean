import CacheRouting.Journal.Storage

/-!
# Files and the paths to them

A file is told from others by its number, whichever paths lead to it.  Renaming and
removing paths leaves the bytes of all files alone, and opening a path gives the file
it leads to, or a new one that nothing led to before.  It neither helps nor hinders
any other path.
-/

namespace CacheRouting

namespace Storage

variable {storage next : Storage} {names directory : List String} {name path : String} {node : Node}
  {file : Nat}

theorem exists_of_bind_eq_ok {Value Result : Type} {outcome : Except StorageError Value}
    {continuation : Value → Except StorageError Result} {result : Result}
    (succeeds : outcome >>= continuation = .ok result) :
    ∃ value, outcome = .ok value ∧ continuation value = .ok result := by
  cases outcome with
  | error error => cases succeeds
  | ok value => exact ⟨value, rfl, succeeds⟩

theorem bytesOf_append (known : file < storage.contents.size) (bytes : List UInt8) (other : Nat) :
    (storage.append file bytes).bytesOf other =
      storage.bytesOf other ++ if file = other then bytes else [] := by
  unfold append bytesOf
  rw [Array.getD_eq_getD_getElem?, Array.getD_eq_getD_getElem?, Array.getElem?_modify]
  by_cases own : file = other
  · subst own
    rw [if_pos rfl, if_pos rfl, Array.getElem?_eq_getElem known]
    rfl
  · rw [if_neg own, if_neg own, List.append_nil]

/-- A new file is empty, as is whatever has not been made. -/
theorem bytesOf_push (storage : Storage) (other : Nat) :
    { storage with contents := storage.contents.push [] }.bytesOf other = storage.bytesOf other := by
  unfold bytesOf
  rw [Array.getD_eq_getD_getElem?, Array.getD_eq_getD_getElem?, Array.getElem?_push]
  split
  · next isNew =>
    rw [isNew, Array.getElem?_eq_none (Nat.le_refl _)]
    rfl
  · rfl

/-- Every path to a file leads to one that has been made. -/
def IsSound (storage : Storage) : Prop :=
  ∀ entry ∈ storage.nodes, ∀ number, entry.2 = .file number → number < storage.contents.size

theorem node?_setNode (storage : Storage) (someNames : names ≠ []) (node : Node)
    (other : List String) :
    (storage.setNode names node).node? other =
      if other = names then some node else storage.node? other := by
  unfold node? setNode
  by_cases own : other = names
  · subst own
    simp [someNames]
  · rw [if_neg own, List.find?_cons_of_neg (by simpa using Ne.symm own), List.find?_filter]
    have sameEntry : (fun entry : List String × Node =>
        decide ((entry.1 != names) = true ∧ (entry.1 == other) = true)) =
        fun entry => entry.1 == other := by
      funext entry
      by_cases isOther : entry.1 = other <;> simp [isOther, own]
    rw [sameEntry]

theorem IsSound.lt_size_of_node? (sound : storage.IsSound)
    (stands : storage.node? names = some (.file file)) : file < storage.contents.size := by
  unfold node? at stands
  split at stands
  · cases stands
  · obtain ⟨entry, found, isFile⟩ := Option.map_eq_some_iff.mp stands
    exact sound entry (List.mem_of_find?_eq_some found) file isFile

theorem IsSound.append (sound : storage.IsSound) {bytes : List UInt8} :
    (storage.append file bytes).IsSound := by
  intro entry member number isFile
  rw [Storage.append, Array.size_modify]
  exact sound entry member number isFile

theorem IsSound.setNode (sound : storage.IsSound) (names : List String)
    (known : ∀ number, node = .file number → number < storage.contents.size) :
    (storage.setNode names node).IsSound := by
  intro entry member
  rcases List.mem_cons.mp member with rfl | stood
  · exact known
  · exact sound entry (List.mem_filter.mp stood).1

theorem IsSound.unsetNode (sound : storage.IsSound) (names : List String) :
    (storage.unsetNode names).IsSound :=
  fun entry member => sound entry (List.mem_filter.mp member).1

theorem IsSound.moveDirectory (sound : storage.IsSound) (source target : List String) :
    (storage.moveDirectory source target).IsSound := by
  intro entry member
  obtain ⟨stood, wasMember, rfl⟩ := List.mem_map.mp member
  have known := sound stood (List.mem_filter.mp wasMember).1
  split
  · exact known
  · exact known

theorem lookUp_eq_ok_iff {found : Option Node} :
    storage.lookUp directory name = .ok found ↔
      name.utf8ByteSize ≤ StoragePath.longestName ∧ storage.node? (directory ++ [name]) = found := by
  unfold lookUp
  split
  · next tooLong => exact ⟨nofun, fun ⟨fits, _⟩ => absurd tooLong (Nat.not_lt.mpr fits)⟩
  · next notLong =>
    exact ⟨fun looksUp => ⟨Nat.le_of_not_lt notLong, Except.ok.inj looksUp⟩,
      fun ⟨_, stands⟩ => congrArg Except.ok stands⟩

theorem lookUpNode_eq_ok_iff :
    storage.lookUpNode directory name = .ok node ↔
      name.utf8ByteSize ≤ StoragePath.longestName ∧
        storage.node? (directory ++ [name]) = some node := by
  rw [← lookUp_eq_ok_iff, lookUpNode]
  cases storage.lookUp directory name with
  | error error => exact ⟨nofun, nofun⟩
  | ok found =>
      cases found with
      | none => exact ⟨nofun, nofun⟩
      | some other =>
          constructor
          · rintro ⟨⟩
            rfl
          · rintro ⟨⟩
            rfl

section Directories

variable (keeps : ∀ names, storage.node? names = some .directory → next.node? names = some .directory)

include keeps

theorem follow_of_directories {reached : List String}
    (follows : storage.follow directory name = .ok reached) :
    next.follow directory name = .ok reached := by
  unfold follow at follows ⊢
  split
  · next isDots => rwa [if_pos isDots] at follows
  · next notDots =>
    rw [if_neg notDots] at follows
    obtain ⟨node, isNode, enters⟩ := exists_of_bind_eq_ok follows
    cases node with
    | file number => cases enters
    | directory =>
        obtain ⟨fits, stands⟩ := lookUpNode_eq_ok_iff.mp isNode
        rw [lookUpNode_eq_ok_iff.mpr ⟨fits, keeps _ stands⟩]
        exact enters

theorem foldlM_follow_of_directories {reached : List String}
    (follows : names.foldlM storage.follow directory = .ok reached) :
    names.foldlM next.follow directory = .ok reached := by
  induction names generalizing directory with
  | nil => exact follows
  | cons name names ih =>
      rw [List.foldlM_cons] at follows ⊢
      obtain ⟨entered, isEntered, rest⟩ := exists_of_bind_eq_ok follows
      rw [follow_of_directories keeps isEntered]
      exact ih rest

/-- As long as directories stay where they are, a path goes where it went. -/
theorem approach_of_directories {destination : Destination}
    (sameStart : next.workingDirectory = storage.workingDirectory)
    (reaches : storage.approach path = .ok destination) :
    next.approach path = .ok destination := by
  unfold approach at reaches ⊢
  obtain ⟨noNul, isNoNul, reaches⟩ := exists_of_bind_eq_ok reaches
  rw [isNoNul, sameStart]
  change (if _ then _ else _) = _
  split at reaches
  · cases reaches
  · next notEmpty =>
    rw [if_neg notEmpty]
    split at reaches
    · cases reaches
    · next notLong =>
      rw [if_neg notLong]
      obtain ⟨entered, isEntered, arrives⟩ := exists_of_bind_eq_ok reaches
      dsimp only
      rw [foldlM_follow_of_directories keeps isEntered]
      exact arrives

end Directories

/-- Everything stands where it stood, and what is new is no directory. -/
structure Extends (storage next : Storage) : Prop where
  workingDirectory_eq : next.workingDirectory = storage.workingDirectory
  stays : ∀ names node, storage.node? names = some node → next.node? names = some node
  directory_stood : ∀ names, next.node? names = some .directory →
    storage.node? names = some .directory

theorem extends_setNode_of_free (isFree : storage.node? names = none)
    (contents : Array (List UInt8)) (file : Nat) :
    storage.Extends ({ storage with contents }.setNode names (.file file)) := by
  have someNames : names ≠ [] := by
    rintro rfl
    cases isFree
  have nodeEq (other : List String) :
      ({ storage with contents }.setNode names (.file file)).node? other =
        if other = names then some (.file file) else storage.node? other :=
    node?_setNode _ someNames _ other
  refine ⟨rfl, ?_, ?_⟩
  · intro other node stands
    rw [nodeEq, if_neg, stands]
    rintro rfl
    cases isFree.symm.trans stands
  · intro other isDirectory
    rw [nodeEq] at isDirectory
    split at isDirectory
    · cases isDirectory
    · exact isDirectory

theorem Extends.approach_eq (added : storage.Extends next) {destination : Destination}
    (reaches : storage.approach path = .ok destination) : next.approach path = .ok destination :=
  approach_of_directories (fun _ isDirectory => added.stays _ _ isDirectory)
    added.workingDirectory_eq reaches

def fileAt? (storage : Storage) (path : String) : Option Nat :=
  match storage.approach path with
  | .ok (.entry directory name false) =>
      match storage.lookUp directory name with
      | .ok (some (.file number)) => some number
      | _ => none
  | _ => none

theorem IsSound.lt_size_of_fileAt? (sound : storage.IsSound)
    (leads : storage.fileAt? path = some file) : file < storage.contents.size := by
  unfold fileAt? at leads
  split at leads
  · split at leads
    · next directory name _ number looksUp =>
      cases leads
      exact sound.lt_size_of_node? (lookUp_eq_ok_iff.mp looksUp).2
    · cases leads
  · cases leads

/-- The path to a place where nothing stood leads to the file that is put there. -/
theorem fileAt?_setNode_of_free (approaches : storage.approach path = .ok (.entry directory name false))
    (isFree : storage.lookUp directory name = .ok none) (contents : Array (List UInt8)) (file : Nat) :
    ({ storage with contents }.setNode (directory ++ [name]) (.file file)).fileAt? path =
      some file := by
  obtain ⟨fits, wasFree⟩ := lookUp_eq_ok_iff.mp isFree
  have stands : ({ storage with contents }.setNode (directory ++ [name]) (.file file)).node?
      (directory ++ [name]) = some (.file file) :=
    (node?_setNode _ (by simp) _ _).trans (if_pos rfl)
  rw [fileAt?, (extends_setNode_of_free wasFree contents file).approach_eq approaches]
  simp only [lookUp_eq_ok_iff.mpr ⟨fits, stands⟩]

/-- Opening a path gives the file it leads to, or a new one to which it leads from then on. -/
theorem openAppend_cases (opens : storage.openAppend path = .ok (file, next)) :
    storage.fileAt? path = some file ∧ next = storage ∨
      storage.fileAt? path = none ∧ next.fileAt? path = some file ∧
        file = storage.contents.size ∧ ∃ names, storage.node? names = none ∧
          next = { storage with contents := storage.contents.push [] }.setNode names (.file file) := by
  unfold openAppend at opens
  obtain ⟨destination, approaches, arrives⟩ := exists_of_bind_eq_ok opens
  cases destination with
  | reached => cases arrives
  | entry directory name slash =>
      cases slash with
      | true => cases arrives
      | false =>
          obtain ⟨found, looksUp, gives⟩ := exists_of_bind_eq_ok arrives
          cases found with
          | some node =>
              cases node with
              | directory => cases gives
              | file number =>
                  cases gives
                  exact Or.inl ⟨by simp only [fileAt?, approaches, looksUp], rfl⟩
          | none =>
              cases gives
              refine Or.inr ⟨by simp only [fileAt?, approaches, looksUp], ?_, rfl, _,
                (lookUp_eq_ok_iff.mp looksUp).2, rfl⟩
              exact fileAt?_setNode_of_free approaches looksUp _ _

theorem bytesOf_openAppend (opens : storage.openAppend path = .ok (file, next)) (other : Nat) :
    next.bytesOf other = storage.bytesOf other := by
  rcases openAppend_cases opens with ⟨-, rfl⟩ | ⟨-, -, -, names, -, rfl⟩
  · rfl
  · exact bytesOf_push storage other

theorem fileAt?_openAppend (opens : storage.openAppend path = .ok (file, next)) :
    next.fileAt? path = some file := by
  rcases openAppend_cases opens with ⟨leads, rfl⟩ | ⟨-, leads, -⟩
  · exact leads
  · exact leads

theorem size_le_openAppend (opens : storage.openAppend path = .ok (file, next)) :
    storage.contents.size ≤ next.contents.size := by
  rcases openAppend_cases opens with ⟨-, rfl⟩ | ⟨-, -, -, names, -, rfl⟩
  · exact Nat.le_refl _
  · simp [setNode]

theorem IsSound.openAppend (sound : storage.IsSound)
    (opens : storage.openAppend path = .ok (file, next)) : next.IsSound := by
  rcases openAppend_cases opens with ⟨-, rfl⟩ | ⟨-, -, rfl, names, -, rfl⟩
  · exact sound
  · refine IsSound.setNode ?_ names ?_
    · intro entry member number isFile
      rw [Array.size_push]
      exact Nat.lt_succ_of_lt (sound entry member number isFile)
    · rintro number ⟨⟩
      rw [Array.size_push]
      exact Nat.lt_succ_self _

theorem extends_openAppend (opens : storage.openAppend path = .ok (file, next)) :
    storage.Extends next := by
  rcases openAppend_cases opens with ⟨-, rfl⟩ | ⟨-, -, -, names, isFree, rfl⟩
  · exact ⟨rfl, fun _ _ stands => stands, fun _ stands => stands⟩
  · exact extends_setNode_of_free isFree _ _

theorem Extends.fileAt?_eq (added : storage.Extends next)
    (leads : storage.fileAt? path = some file) : next.fileAt? path = some file := by
  unfold fileAt? at leads ⊢
  split at leads
  · next directory name approaches =>
    split at leads
    · next number looksUp =>
      obtain ⟨fits, stands⟩ := lookUp_eq_ok_iff.mp looksUp
      rw [added.approach_eq approaches]
      dsimp only
      rw [lookUp_eq_ok_iff.mpr ⟨fits, added.stays _ _ stands⟩]
      exact leads
    · cases leads
  · cases leads

def CanOpen (storage : Storage) (path : String) : Prop :=
  ∃ opened, storage.openAppend path = .ok opened

theorem canOpen_iff :
    storage.CanOpen path ↔ ∃ directory name,
      storage.approach path = .ok (.entry directory name false) ∧
        name.utf8ByteSize ≤ StoragePath.longestName ∧
        storage.node? (directory ++ [name]) ≠ some .directory := by
  constructor
  · rintro ⟨opened, opens⟩
    obtain ⟨destination, approaches, arrives⟩ := exists_of_bind_eq_ok opens
    cases destination with
    | reached => cases arrives
    | entry directory name slash =>
        cases slash with
        | true => cases arrives
        | false =>
            obtain ⟨found, looksUp, gives⟩ := exists_of_bind_eq_ok arrives
            obtain ⟨fits, stands⟩ := lookUp_eq_ok_iff.mp looksUp
            refine ⟨directory, name, approaches, fits, ?_⟩
            intro isDirectory
            rw [stands.symm.trans isDirectory] at gives
            cases gives
  · rintro ⟨directory, name, approaches, fits, notDirectory⟩
    rw [CanOpen, openAppend, approaches]
    change ∃ opened, (storage.lookUp directory name >>= _) = _
    rw [lookUp_eq_ok_iff.mpr ⟨fits, rfl⟩]
    cases stands : storage.node? (directory ++ [name]) with
    | none => exact ⟨_, rfl⟩
    | some node =>
        cases node with
        | directory => exact absurd stands notDirectory
        | file number => exact ⟨_, rfl⟩

/-- Opening one path neither helps nor hinders another. -/
theorem Extends.canOpen_iff (added : storage.Extends next) :
    next.CanOpen path ↔ storage.CanOpen path := by
  rw [Storage.canOpen_iff, Storage.canOpen_iff]
  constructor
  · rintro ⟨directory, name, approaches, fits, notDirectory⟩
    exact ⟨directory, name,
      approach_of_directories added.directory_stood added.workingDirectory_eq.symm approaches,
      fits, mt (added.stays _ _) notDirectory⟩
  · rintro ⟨directory, name, approaches, fits, notDirectory⟩
    exact ⟨directory, name, added.approach_eq approaches, fits,
      mt (added.directory_stood _) notDirectory⟩

/-- Paths lead elsewhere, but all files are as they were. -/
structure Rearranges (storage next : Storage) : Prop where
  contents_eq : next.contents = storage.contents
  isSound : storage.IsSound → next.IsSound

theorem rearranges_refl (storage : Storage) : storage.Rearranges storage :=
  ⟨rfl, id⟩

theorem rearranges_of_moveNode {source target : List String} {there : Option Node}
    (stood : storage.node? source = some node)
    (moves : storage.moveNode source node target there = .ok next) : storage.Rearranges next := by
  unfold moveNode at moves
  split at moves
  · cases moves
    exact rearranges_refl storage
  · split at moves
    · cases moves
    · cases moves
      refine ⟨rfl, fun sound => (sound.unsetNode source).setNode target ?_⟩
      rintro number ⟨⟩
      exact sound.lt_size_of_node? stood
    · cases moves
    · split at moves
      · cases moves
      · cases moves
        exact ⟨rfl, fun sound => sound.moveDirectory source target⟩

theorem rearranges_of_rename {source target : String}
    (renames : storage.rename source target = .ok next) : storage.Rearranges next := by
  unfold rename at renames
  obtain ⟨-, -, renames⟩ := exists_of_bind_eq_ok renames
  obtain ⟨-, -, renames⟩ := exists_of_bind_eq_ok renames
  obtain ⟨origin, -, renames⟩ := exists_of_bind_eq_ok renames
  obtain ⟨destination, -, renames⟩ := exists_of_bind_eq_ok renames
  split at renames
  · obtain ⟨node, isNode, renames⟩ := exists_of_bind_eq_ok renames
    obtain ⟨there, -, renames⟩ := exists_of_bind_eq_ok renames
    dsimp only at renames
    split at renames
    · cases renames
    · split at renames
      · cases renames
      · split at renames
        · cases renames
        · exact rearranges_of_moveNode (lookUpNode_eq_ok_iff.mp isNode).2 renames
  · cases renames

theorem rearranges_of_remove (removes : storage.remove path = .ok next) : storage.Rearranges next := by
  unfold remove at removes
  obtain ⟨destination, -, removes⟩ := exists_of_bind_eq_ok removes
  cases destination with
  | reached => cases removes
  | entry directory name slash =>
      obtain ⟨node, -, removes⟩ := exists_of_bind_eq_ok removes
      cases node with
      | directory => cases removes
      | file number =>
          dsimp only at removes
          split at removes
          · cases removes
          · cases removes
            exact ⟨rfl, fun sound => sound.unsetNode _⟩

theorem rearranges_of_makeDirectory (makes : storage.makeDirectory path = .ok next) :
    storage.Rearranges next := by
  unfold makeDirectory at makes
  obtain ⟨destination, -, makes⟩ := exists_of_bind_eq_ok makes
  cases destination with
  | reached => cases makes
  | entry directory name slash =>
      obtain ⟨found, -, makes⟩ := exists_of_bind_eq_ok makes
      cases found with
      | some node => cases makes
      | none =>
          cases makes
          exact ⟨rfl, fun sound => sound.setNode _ nofun⟩

theorem Rearranges.bytesOf_eq (rearranges : storage.Rearranges next) (other : Nat) :
    next.bytesOf other = storage.bytesOf other := by
  rw [bytesOf, rearranges.contents_eq, bytesOf]

end Storage

end CacheRouting
