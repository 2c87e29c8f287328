import CacheRouting.Journal.Subscriber
import CacheRouting.Proofs.Journal.LogFile
import CacheRouting.Proofs.Text.Utf8

/-!
# Events and the logs they reach

Whatever a layer lets through is written behind what its output holds, and nothing else is
written there.  The tests of the two layers for the access target exclude each other, so that
no event reaches both logs, and the filter of the main log has no say in the access log.
-/

namespace CacheRouting

inductive LogSink
  | file (number : Nat)
  | console
  deriving DecidableEq, Repr

namespace LogStore

def sink? (store : LogStore) : LogOutput → Option LogSink
  | .file log => (store.current? log).map fun current => .file current.file
  | .console => some .console

/-- All files that paths lead to and that log files are open at have been made. -/
structure IsSound (store : LogStore) : Prop where
  storage : store.storage.IsSound
  isMade : ∀ log current, store.current? log = some current →
    current.file < store.storage.contents.size

theorem IsSound.openLog {store next : LogStore} {log : LogFile} {path : String}
    (sound : store.IsSound) (opens : store.openLog path = .ok (log, next)) : next.IsSound := by
  obtain ⟨file, opensPath, -, currentEq⟩ := exists_of_openLog opens
  have storageSound := sound.storage.openAppend opensPath
  refine ⟨storageSound, fun other current isCurrent => ?_⟩
  rw [currentEq] at isCurrent
  split at isCurrent
  · cases isCurrent
    exact storageSound.lt_size_of_fileAt? (Storage.fileAt?_openAppend opensPath)
  · exact Nat.lt_of_lt_of_le (sound.isMade other current isCurrent)
      (Storage.size_le_openAppend opensPath)

theorem isAtPath_of_openLog {store next : LogStore} {log : LogFile} {path : String}
    (opens : store.openLog path = .ok (log, next)) : next.IsAtPath log path := by
  obtain ⟨file, opensPath, -, currentEq⟩ := exists_of_openLog opens
  exact ⟨file, (currentEq log).trans (if_pos rfl), Storage.fileAt?_openAppend opensPath⟩

end LogStore

namespace LogWorld

def bytesAt (world : LogWorld) : LogSink → List UInt8
  | .file number => world.store.storage.bytesOf number
  | .console => Text.utf8 world.console

variable {world : LogWorld}

/-- What is written for an output is added where its lines end up, and nowhere else. -/
theorem bytesAt_write (sound : world.store.IsSound) (output : LogOutput) (text : String)
    (sink : LogSink) :
    (world.write output text).bytesAt sink =
      world.bytesAt sink ++ if world.store.sink? output = some sink then Text.utf8 text else [] := by
  cases output with
  | console =>
      cases sink with
      | file number => exact (List.append_nil _).symm
      | console => exact Text.utf8_append world.console text
  | file log =>
      cases isCurrent : world.store.current? log with
      | none =>
          simp [write, LogStore.writeTo, LogStore.writer?, LogStore.sink?, isCurrent]
      | some current =>
          have written : (world.write (.file log) text).store.storage =
              world.store.storage.append current.file (Text.utf8 text) := by
            simp [write, LogStore.writeTo, LogStore.writer?, LogStore.write, isCurrent]
          cases sink with
          | console =>
              simp [LogStore.sink?, isCurrent, bytesAt, write]
          | file number =>
              rw [bytesAt, written, Storage.bytesOf_append (sound.isMade log current isCurrent)]
              simp [bytesAt, LogStore.sink?, isCurrent]

theorem current?_write (output : LogOutput) (text : String) :
    (world.write output text).store.current? = world.store.current? := by
  funext other
  cases output with
  | console => rfl
  | file log =>
      rw [write, LogStore.writeTo]
      cases world.store.writer? log <;> rfl

theorem sink?_write (output : LogOutput) (text : String) :
    (world.write output text).store.sink? = world.store.sink? := by
  funext other
  cases other with
  | console => rfl
  | file log => rw [LogStore.sink?, current?_write, LogStore.sink?]

theorem isSound_write (sound : world.store.IsSound) (output : LogOutput) (text : String) :
    (world.write output text).store.IsSound := by
  cases output with
  | console => exact sound
  | file log =>
      rw [write, LogStore.writeTo]
      cases world.store.writer? log with
      | none => exact sound
      | some writer =>
          exact ⟨sound.storage.append, fun other current isCurrent =>
            Nat.lt_of_lt_of_eq (sound.isMade other current isCurrent) Array.size_modify.symm⟩

end LogWorld

def linesOf (showsTarget : Bool) (events : List Event) : List UInt8 :=
  events.flatMap fun event => Text.utf8 (Subscriber.lineOf showsTarget event)

namespace LogLayer

variable {world : LogWorld}

def bytes (layer : LogLayer) (event : Event) : List UInt8 :=
  if layer.accepts event then Text.utf8 (Subscriber.lineOf layer.showsTarget event) else []

def bytesFor (store : LogStore) (sink : LogSink) (layers : List LogLayer) (event : Event) :
    List UInt8 :=
  layers.flatMap fun layer => if store.sink? layer.output = some sink then layer.bytes event else []

theorem flatMap_bytes (layer : LogLayer) (events : List Event) :
    events.flatMap layer.bytes = linesOf layer.showsTarget (events.filter layer.accepts) := by
  induction events with
  | nil => rfl
  | cons event events ih =>
      rw [List.flatMap_cons, List.filter_cons, ih, bytes]
      split <;> rfl

theorem bytesFor_eq_nil {store : LogStore} {sink : LogSink} {layers : List LogLayer}
    (elsewhere : ∀ layer ∈ layers, store.sink? layer.output ≠ some sink) (event : Event) :
    bytesFor store sink layers event = [] :=
  List.flatMap_eq_nil_iff.mpr fun layer member => if_neg (elsewhere layer member)

/-- What is written in a place that one layer has to itself. -/
theorem bytesFor_eq_bytes {store : LogStore} {sink : LogSink} {layer : LogLayer}
    {before after : List LogLayer} (own : store.sink? layer.output = some sink)
    (elsewhere : ∀ other ∈ before ++ after, store.sink? other.output ≠ some sink) :
    bytesFor store sink (before ++ layer :: after) = layer.bytes := by
  funext event
  have nothingBefore : bytesFor store sink before event = [] :=
    bytesFor_eq_nil (fun other member => elsewhere other (List.mem_append_left after member)) event
  have nothingAfter : bytesFor store sink after event = [] :=
    bytesFor_eq_nil (fun other member => elsewhere other (List.mem_append_right before member)) event
  rw [bytesFor] at nothingBefore nothingAfter ⊢
  rw [List.flatMap_append, List.flatMap_cons, nothingBefore, nothingAfter, if_pos own,
    List.nil_append, List.append_nil]

theorem bytesAt_receive (sound : world.store.IsSound) (layer : LogLayer) (event : Event)
    (sink : LogSink) :
    (layer.receive world event).bytesAt sink = world.bytesAt sink ++
      if world.store.sink? layer.output = some sink then layer.bytes event else [] := by
  rw [receive, bytes]
  split
  · exact LogWorld.bytesAt_write sound _ _ sink
  · simp

theorem sink?_receive (layer : LogLayer) (event : Event) :
    (layer.receive world event).store.sink? = world.store.sink? := by
  rw [receive]
  split
  · exact LogWorld.sink?_write _ _
  · rfl

theorem isSound_receive (sound : world.store.IsSound) (layer : LogLayer) (event : Event) :
    (layer.receive world event).store.IsSound := by
  rw [receive]
  split
  · exact LogWorld.isSound_write sound _ _
  · exact sound

/-- An event that is handed to layers, one after the other, leaves what each of them writes. -/
theorem bytesAt_foldl_receive (sound : world.store.IsSound) (layers : List LogLayer)
    (event : Event) (sink : LogSink) :
    let after := layers.foldl (fun world layer => layer.receive world event) world
    after.bytesAt sink = world.bytesAt sink ++ bytesFor world.store sink layers event ∧
      after.store.sink? = world.store.sink? ∧ after.store.IsSound := by
  induction layers generalizing world with
  | nil => exact ⟨(List.append_nil _).symm, rfl, sound⟩
  | cons layer layers ih =>
      obtain ⟨bytesEq, sinkEq, soundAfter⟩ := ih (isSound_receive sound layer event)
      refine ⟨?_, sinkEq.trans (sink?_receive layer event), soundAfter⟩
      rw [List.foldl_cons, bytesEq, bytesAt_receive sound, List.append_assoc, bytesFor, bytesFor,
        List.flatMap_cons, sink?_receive]

end LogLayer

namespace LogHandles

theorem bytesAt_deliver (handles : LogHandles) {world : LogWorld} (sound : world.store.IsSound)
    (enables : Event → Bool) (event : Event) (sink : LogSink) :
    let after := handles.deliver enables world event
    after.bytesAt sink = world.bytesAt sink ++
        LogLayer.bytesFor world.store sink (handles.layers enables) event ∧
      after.store.sink? = world.store.sink? ∧ after.store.IsSound :=
  LogLayer.bytesAt_foldl_receive sound (handles.layers enables) event sink

/-- A whole run of events leaves, event by event, what the layers write of it. -/
theorem bytesAt_foldl_deliver (handles : LogHandles) {world : LogWorld}
    (sound : world.store.IsSound) (enables : Event → Bool) (events : List Event) (sink : LogSink) :
    (events.foldl (handles.deliver enables) world).bytesAt sink = world.bytesAt sink ++
      events.flatMap (LogLayer.bytesFor world.store sink (handles.layers enables)) := by
  induction events generalizing world with
  | nil => exact (List.append_nil _).symm
  | cons event events ih =>
      obtain ⟨bytesEq, sinkEq, soundAfter⟩ :=
        handles.bytesAt_deliver sound enables event sink
      have sameShare : LogLayer.bytesFor (handles.deliver enables world event).store sink
          (handles.layers enables) = LogLayer.bytesFor world.store sink (handles.layers enables) := by
        funext event
        rw [LogLayer.bytesFor, LogLayer.bytesFor, sinkEq]
      rw [List.foldl_cons, ih soundAfter, List.flatMap_cons, ← List.append_assoc, ← bytesEq,
        sameShare]

/-- A place that one layer has to itself gets the lines of the events that the layer accepts. -/
theorem bytesAt_foldl_deliver_of_own {handles : LogHandles} {world : LogWorld}
    {enables : Event → Bool} {layer : LogLayer} {before after : List LogLayer} {sink : LogSink}
    (sound : world.store.IsSound) (layersEq : handles.layers enables = before ++ layer :: after)
    (own : world.store.sink? layer.output = some sink)
    (elsewhere : ∀ other ∈ before ++ after, world.store.sink? other.output ≠ some sink)
    (events : List Event) :
    (events.foldl (handles.deliver enables) world).bytesAt sink =
      world.bytesAt sink ++ linesOf layer.showsTarget (events.filter layer.accepts) := by
  rw [handles.bytesAt_foldl_deliver sound, layersEq, LogLayer.bytesFor_eq_bytes own elsewhere,
    LogLayer.flatMap_bytes]

/-- A place that no layer writes to stays as it is. -/
theorem bytesAt_foldl_deliver_of_elsewhere {handles : LogHandles} {world : LogWorld}
    {enables : Event → Bool} {sink : LogSink} (sound : world.store.IsSound)
    (elsewhere : ∀ layer ∈ handles.layers enables, world.store.sink? layer.output ≠ some sink)
    (events : List Event) :
    (events.foldl (handles.deliver enables) world).bytesAt sink = world.bytesAt sink := by
  have nothing : events.flatMap
      (LogLayer.bytesFor world.store sink (handles.layers enables)) = [] :=
    List.flatMap_eq_nil_iff.mpr fun event _ => LogLayer.bytesFor_eq_nil elsewhere event
  rw [handles.bytesAt_foldl_deliver sound, nothing, List.append_nil]

theorem accepts_mainLayer (handles : LogHandles) (enables : Event → Bool) :
    (handles.mainLayer enables).accepts =
      fun event => enables event && event.target != accessTarget := by
  funext event
  simp [LogLayer.accepts, mainLayer]

theorem accepts_accessLayer {handles : LogHandles} {layer : LogLayer}
    (isAccess : handles.accessLayer? = some layer) :
    layer.showsTarget = false ∧ layer.accepts = fun event => event.target == accessTarget := by
  obtain ⟨log, -, rfl⟩ := Option.map_eq_some_iff.mp isAccess
  refine ⟨rfl, funext fun event => ?_⟩
  simp [LogLayer.accepts]

/-- No event gets through to both logs. -/
theorem length_filter_accepts_le_one (handles : LogHandles) (enables : Event → Bool)
    (event : Event) : ((handles.layers enables).filter (·.accepts event)).length ≤ 1 := by
  rw [layers]
  cases isAccess : handles.accessLayer? with
  | none => exact List.length_filter_le _ _
  | some layer =>
      obtain ⟨-, accessAccepts⟩ := accepts_accessLayer isAccess
      have mainAccepts := handles.accepts_mainLayer enables
      by_cases toAccess : event.target = accessTarget
      · simp [accessAccepts, mainAccepts, toAccess]
      · have passesBy : ¬ layer.accepts event = true := by simp [accessAccepts, toAccess]
        rw [Option.toList_some, List.singleton_append,
          List.filter_cons_of_neg (p := fun layer : LogLayer => layer.accepts event) passesBy]
        exact List.length_filter_le _ _

end LogHandles

end CacheRouting
