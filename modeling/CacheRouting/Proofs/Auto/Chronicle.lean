import CacheRouting.Proofs.Auto.Passes

/-!
# The chronicle of passes

A chronicle has an account of every pass that has begun: when it began, which calls
it made and how they went, what it reported, and how and when it came to its end.
It is written by looking at the scheduler before and after each thing that can
happen, which includes that hosts take to answering differently at any time.
-/

namespace CacheRouting

inductive Occurrence
  | act (action : Engine.Action)
  /-- The rounds hear of a pass that has been broken off. -/
  | tell
  /-- A host is going to answer in another way. -/
  | change (host : Nat) (responder : Responder)

inductive Outcome
  | completed
  | broken
  deriving DecidableEq

structure PassAccount where
  began : Nat
  /-- The calls that have been made, each with its host, its probe and how it went. -/
  calls : List (Nat × String × Call)
  reports : List (Message Float)
  /-- When the pass came to its end and how, if it has. -/
  ended : Option (Nat × Outcome)
  deriving DecidableEq

/-- A scheduler that is watched, and what has been seen of its passes. -/
structure Chronicle where
  watch : Watch
  /-- The passes that have begun, the latest first. -/
  accounts : List PassAccount

namespace Engine

def nextTick? (engine : Engine) : Option Nat :=
  match engine.activity with
  | .resting due => some due
  | .passing due _ => some due
  | .broken due => some due
  | _ => none

def outcome (engine : Engine) : Outcome :=
  match engine.activity with
  | .broken _ => .broken
  | _ => .completed

def callsBetween (engine next : Engine) : List (Nat × String × Call) :=
  (engine.askedBetween next).filterMap fun (host, probe) =>
    engine.responders[host]?.map fun responder => (host, probe, responder.nextCall probe)

theorem callsBetween_of_eq {engine next : Engine} (same : next.responders = engine.responders) :
    engine.callsBetween next = [] := by
  rw [callsBetween, askedBetween_of_eq same, List.filterMap_nil]

theorem callsBetween_of_count {engine next : Engine} {host : Nat} {probe : String}
    {responder : Responder} (isResponder : engine.responders[host]? = some responder)
    (asks : next.responders = engine.responders.setIfInBounds host (responder.count probe)) :
    engine.callsBetween next = [(host, probe, responder.nextCall probe)] := by
  rw [callsBetween, askedBetween_of_count isResponder asks]
  simp [isResponder]

end Engine

namespace Watch

def occur (watch : Watch) : Occurrence → Watch
  | .act action => watch.act action
  | .tell => { watch with engine := watch.engine.tellBroken }
  | .change host responder =>
      { watch with
        engine := { watch.engine with
          responders := watch.engine.responders.setIfInBounds host responder } }

def callsIn (watch : Watch) : Occurrence → List (Nat × String × Call)
  | .act action => watch.engine.callsBetween (watch.engine.act action)
  | _ => []

def sendsIn (watch : Watch) : Occurrence → List (Message Float)
  | .act .pass => watch.engine.sentBetween (watch.engine.act .pass)
  | _ => []

end Watch

namespace PassAccount

def beginning (time : Nat) : PassAccount := ⟨time, [], [], none⟩

/-- Add to the account what is seen of a pass as one state follows the other. -/
def extend (account : PassAccount) (engine next : Engine) (calls : List (Nat × String × Call))
    (reports : List (Message Float)) : PassAccount where
  began := account.began
  calls := account.calls ++ calls
  reports := account.reports ++ reports
  ended :=
    if engine.isPassing && !next.isPassing then some (next.now, next.outcome) else account.ended

end PassAccount

namespace Chronicle

def start (watch : Watch) : Chronicle := ⟨watch, []⟩

/-- Record something that happens.  A pass begins where the time of the next one is set
anew, and all else that is seen belongs to the pass that began last. -/
def record (chronicle : Chronicle) (occurrence : Occurrence) : Chronicle :=
  let engine := chronicle.watch.engine
  let next := chronicle.watch.occur occurrence
  let begun :=
    if next.engine.nextTick? = engine.nextTick? then chronicle.accounts
    else .beginning engine.now :: chronicle.accounts
  ⟨next, begun.modifyHead (·.extend engine next.engine (chronicle.watch.callsIn occurrence)
    (chronicle.watch.sendsIn occurrence))⟩

def recordAll (chronicle : Chronicle) (occurrences : List Occurrence) : Chronicle :=
  occurrences.foldl record chronicle

@[simp]
theorem watch_record (chronicle : Chronicle) (occurrence : Occurrence) :
    (chronicle.record occurrence).watch = chronicle.watch.occur occurrence :=
  rfl

theorem recordAll_append (chronicle : Chronicle) (first second : List Occurrence) :
    chronicle.recordAll (first ++ second) = (chronicle.recordAll first).recordAll second :=
  List.foldl_append

end Chronicle

namespace Discovery

/-- The calls go through a plan and leave the rest of it: each asks the probe that comes next,
a host that fails is asked no more, and nobody is asked after a call that breaks off. -/
inductive Course (plan : List (Nat × String)) :
    List (Nat × String × Call) → List (Nat × String) → Prop
  | begin : Course plan [] plan
  | call {calls : List (Nat × String × Call)} {host : Nat} {probe : String}
      {later : List (Nat × String)} (call : Call)
      (course : Course plan calls ((host, probe) :: later)) :
      Course plan (calls ++ [(host, probe, call)]) (leave host later call.answer)

def listedBy (calls : List (Nat × String × Call)) : List (Nat × String × Float) :=
  calls.flatMap fun (host, probe, call) =>
    (call.answer.entries probe).map fun entry => (host, entry)

theorem listedBy_append (first second : List (Nat × String × Call)) :
    listedBy (first ++ second) = listedBy first ++ listedBy second :=
  List.flatMap_append

theorem listedBy_singleton (host : Nat) (probe : String) (call : Call) :
    listedBy [(host, probe, call)] =
      (call.answer.entries probe).map fun entry => (host, entry) :=
  List.flatMap_singleton ..

theorem Course.suffix {plan : List (Nat × String)} {calls : List (Nat × String × Call)}
    {left : List (Nat × String)} (course : Course plan calls left) : left <:+ plan := by
  induction course with
  | begin => exact List.suffix_rfl
  | call call course ih =>
      exact (leave_suffix ..).trans ((List.suffix_cons _ _).trans ih)

/-- Only the last call can break off, and nothing is left then. -/
theorem Course.exists_last_of_broken {plan : List (Nat × String)} {calls : List (Nat × String × Call)}
    {left : List (Nat × String)} (course : Course plan calls left) {entry : Nat × String × Call}
    (member : entry ∈ calls) (breaks : entry.2.2.answer = .broken) :
    left = [] ∧ ∃ before host probe later call, Course plan before ((host, probe) :: later) ∧
      calls = before ++ [(host, probe, call)] ∧ call.answer = .broken := by
  induction course with
  | begin => cases member
  | @call before host probe later call course ih =>
      rcases List.mem_append.mp member with isEarlier | isLast
      · cases (ih isEarlier).1
      · cases List.mem_singleton.mp isLast
        exact ⟨by rw [breaks, leave], before, host, probe, later, call, course, rfl, breaks⟩

end Discovery

namespace PassAccount

open Discovery (Course listedBy reportOf)

variable (router : AutoRouter Float)

def fullPlan : List (Nat × String) :=
  Discovery.planOf router.hosts.length (Listing.probeKeys router.bucketCount)

/-- A pass makes its calls as its plan has them, to the end or up to one that breaks off, and
reports what the replies list. -/
inductive IsSound (account : PassAccount) : Prop
  | goesOn {left : List (Nat × String)} (notEnded : account.ended = none)
      (course : Course (fullPlan router) account.calls left)
      (reports : account.reports <+: (listedBy account.calls).map (reportOf router))
  | completed {time : Nat} (ended : account.ended = some (time, .completed))
      (beganLe : account.began ≤ time) (course : Course (fullPlan router) account.calls [])
      (noneBroken : ∀ entry ∈ account.calls, entry.2.2.answer ≠ .broken)
      (reports : account.reports = (listedBy account.calls).map (reportOf router))
  | broken {time host : Nat} {probe : String} {later : List (Nat × String)}
      {before : List (Nat × String × Call)} {call : Call}
      (ended : account.ended = some (time, .broken)) (beganLe : account.began ≤ time)
      (course : Course (fullPlan router) before ((host, probe) :: later))
      (calls : account.calls = before ++ [(host, probe, call)]) (breaks : call.answer = .broken)
      (reports : account.reports = (listedBy account.calls).map (reportOf router))

/-- When the latest of the passes that were completed came to its end. -/
def lastCompletion : List PassAccount → Option Nat
  | [] => none
  | account :: earlier =>
      match account.ended with
      | some (time, .completed) => some time
      | _ => lastCompletion earlier

/-- One pass comes after the other: each has ended before the next began, the last of them by
now. -/
inductive InTurn : (now : Nat) → List PassAccount → Prop
  | nil {now : Nat} : InTurn now []
  | cons {now time : Nat} {outcome : Outcome} {account : PassAccount} {earlier : List PassAccount}
      (ended : account.ended = some (time, outcome)) (timeLe : time ≤ now)
      (beganLe : account.began ≤ time) (inTurn : InTurn account.began earlier) :
      InTurn now (account :: earlier)

end PassAccount

end CacheRouting
