import CacheRouting.Auto.Responder
import CacheRouting.Auto.Router

/-!
# Discovery passes

A discovery pass asks every host every probe and reports each listed entry with
the square root of its count.  A host that fails a probe is left alone until the
next pass.  The engine holds a scheduler together with the pass that is going on
and the time; each of its steps is one thing that cannot be interrupted.  Its clock
has no end, so the time between passes may be of any length.
-/

namespace CacheRouting

/-- Where a pass stands with the first of its remaining probes. -/
inductive Stage
  | asking
  /-- The call that is on its way comes to its end at a time. -/
  | awaiting (time : Nat) (answer : Answer)
  /-- Keys and amounts are still to be reported. -/
  | reporting (entries : List (String × Float))

structure Pass where
  started : Nat
  /-- The probes still to be asked, each with the index of its host. -/
  remaining : List (Nat × String)
  stage : Stage

inductive Activity
  | off
  /-- The next pass starts when its time comes. -/
  | resting (due : Nat)
  /-- A pass goes on; `due` is the time of the next one. -/
  | passing (due : Nat) (pass : Pass)
  /-- A call has broken a pass off, and nothing has told of it yet. -/
  | broken (due : Nat)
  /-- There will be no more passes, and the one that goes on is to stop. -/
  | stopping

/-- A scheduler, its hosts and its discovery, at a time in milliseconds. -/
structure Engine where
  router : AutoRouter Float
  responders : Array Responder
  /-- What every host is asked. -/
  probes : List String
  interval : Nat
  now : Nat
  activity : Activity
  /-- When the last pass came to its end. -/
  lastCheck : Option Nat
  journal : Journal

inductive PassProgress
  | moved
  | sent
  | waits
  | over
  deriving DecidableEq

namespace Engine

def discoveryTarget : String := "memroute_scheduler::auto::discovery"

/-- An engine at time zero.  Without time between passes discovery ends before it
begins. -/
def start (router : AutoRouter Float) (responders : List Responder) (options : AutoOptions)
    (journal : Journal) : Engine where
  router
  responders := responders.toArray
  probes := Listing.probeKeys router.bucketCount
  interval := options.interval
  now := 0
  activity := if options.discovery && options.interval != 0 then .resting 0 else .off
  lastCheck := none
  journal

def note (engine : Engine) (event : Event) : Engine :=
  { engine with journal := engine.journal.add event }

def addressOf (engine : Engine) (host : Nat) : String :=
  ((engine.router.hosts[host]?).map (·.address)).getD ""

/-- All probes of a pass: every probe of the first host, then of the next. -/
def plan (engine : Engine) : List (Nat × String) :=
  (List.range engine.router.hosts.length).flatMap fun host =>
    engine.probes.map fun probe => (host, probe)

/-- A pass that starts no more than this many milliseconds late keeps the rhythm of
the passes; after a longer delay the rhythm starts anew. -/
def tolerance : Nat := 5

/-- When the next pass is due, given when the one that starts now was. -/
def nextDue (engine : Engine) (due : Nat) : Nat :=
  if due + tolerance < engine.now then engine.now + engine.interval else due + engine.interval

def startPass (engine : Engine) (due : Nat) : Engine :=
  { engine with
    activity := .passing (engine.nextDue due) ⟨engine.now, engine.plan, .asking⟩ }

def setPass (engine : Engine) (due : Nat) (pass : Pass) : Engine :=
  { engine with activity := .passing due pass }

def orderEvent (engine : Engine) (bucket : Nat) : Event where
  level := .debug
  target := discoveryTarget
  message := "bucket order"
  fields :=
    let order := ((engine.router.view? bucket).map (·.order)).getD []
    [("bucket", toString bucket),
      ("order", "[" ++ ", ".intercalate (order.map fun host => Text.quote (engine.addressOf host))
        ++ "]")]

def noteOrders (engine : Engine) : Engine :=
  if engine.journal.keeps .debug then
    (List.range engine.router.bucketCount).foldl
      (fun noted bucket => noted.note (engine.orderEvent bucket)) engine
  else engine

def completeEvent (engine : Engine) (pass : Pass) : Event where
  level := .debug
  target := discoveryTarget
  message := "discovery pass complete"
  fields := [("hosts", toString engine.router.hosts.length),
    ("probes", toString engine.probes.length),
    ("elapsed_ms", toString (engine.now - pass.started))]

def finishPass (engine : Engine) (due : Nat) (pass : Pass) : Engine :=
  { engine.noteOrders with
    activity := .resting due
    lastCheck := some engine.now }.note (engine.completeEvent pass)

/-- End a pass in which a call broke off. -/
def breakPass (engine : Engine) (due : Nat) : Engine :=
  { engine with activity := .broken due }

/-- Tell of the pass that has been broken off, if one has. -/
def tellBroken (engine : Engine) : Engine :=
  match engine.activity with
  | .broken due =>
      { engine with activity := .resting due }.note
        { level := .error, target := discoveryTarget, message := "discovery pass panicked",
          fields := [("error", "panic")] }
  | _ => engine

def entriesOf (probe : String) (bytes : List UInt8) : List (String × Float) :=
  (Listing.parse (Text.ofUtf8Lossy bytes)).map fun record =>
    (probe ++ record.name, record.count.sqrt)

def probeEvent (engine : Engine) (host : Nat) (probe message : String)
    (more : List (String × String)) : Event where
  level := .debug
  target := discoveryTarget
  message
  fields := ("host", engine.addressOf host) :: ("key", probe) :: more

def receive (engine : Engine) (due : Nat) (pass : Pass) (host : Nat) (probe : String)
    (rest : List (Nat × String)) (reply : Reply) : Engine :=
  let skipped :=
    (engine.setPass due { pass with remaining := rest, stage := .asking }).note
      (engine.probeEvent host probe "empty listing, skipped" [])
  match reply with
  | .miss => skipped
  | .body [] => skipped
  | .body bytes => engine.setPass due { pass with stage := .reporting (entriesOf probe bytes) }
  | .failed =>
      (engine.setPass due
        { pass with remaining := rest.dropWhile fun next => next.1 == host, stage := .asking }).note
        (engine.probeEvent host probe "listing probe failed, skipping host"
          [("error", "request to " ++ probe ++ " timed out")])

/-- Hear how the call for the first of the remaining probes has come to its end. -/
def hear (engine : Engine) (due : Nat) (pass : Pass) (host : Nat) (probe : String)
    (rest : List (Nat × String)) : Answer → PassProgress × Engine
  | .broken => (.over, engine.breakPass due)
  | .replied reply => (.moved, engine.receive due pass host probe rest reply)

def ask (engine : Engine) (due : Nat) (pass : Pass) (host : Nat) (probe : String)
    (rest : List (Nat × String)) (responder : Responder) : PassProgress × Engine :=
  let (call, responder) := responder.ask probe
  let engine := { engine with responders := engine.responders.setIfInBounds host responder }
  if call.delay = 0 then engine.hear due pass host probe rest call.answer
  else
    (.waits, engine.setPass due
      { pass with stage := .awaiting (engine.now + call.delay) call.answer })

def setDispatch (engine : Engine) (dispatch : Dispatch Float) : Engine :=
  { engine with router := { engine.router with dispatch } }

def waitForRoom (engine : Engine) (sender : Sender) : Engine :=
  engine.setDispatch (engine.router.dispatch.wait sender)

def notFiniteEvent (address key : String) (amount : Float) : Event where
  level := .debug
  target := "memroute_scheduler::auto"
  message := "non-finite feedback dropped"
  fields := [("host", address), ("key", key),
    ("adjust", if amount.isNaN then "NaN" else if amount < 0 then "-inf" else "inf")]

def reportEntry (engine : Engine) (due : Nat) (pass : Pass) (host : Nat) (key : String)
    (amount : Float) (entries : List (String × Float)) : PassProgress × Engine :=
  let reported := engine.setPass due { pass with stage := .reporting entries }
  match engine.router.reportAt host key amount with
  | .feedback item =>
      match engine.router.dispatch.send? .discovery (.feedback item) with
      | some dispatch => (.sent, reported.setDispatch dispatch)
      | none => (.waits, engine.waitForRoom .discovery)
  | _ => (.moved, reported.note (notFiniteEvent (engine.addressOf host) key amount))

def passStep (engine : Engine) (due : Nat) (pass : Pass) : PassProgress × Engine :=
  match pass.remaining with
  | [] => (.over, engine.finishPass due pass)
  | (host, probe) :: rest =>
      match pass.stage with
      | .asking =>
          match engine.responders[host]? with
          | some responder => engine.ask due pass host probe rest responder
          | none => (.moved, engine.setPass due { pass with remaining := rest })
      | .awaiting time answer =>
          if time ≤ engine.now then engine.hear due pass host probe rest answer
          else (.waits, engine)
      | .reporting [] => (.moved, engine.setPass due { pass with remaining := rest, stage := .asking })
      | .reporting ((key, amount) :: entries) =>
          engine.reportEntry due pass host key amount entries

def work? (engine : Engine) : Option Engine :=
  engine.router.dispatch.work?.map engine.setDispatch

def caller : Sender := .caller 0

inductive Submission
  | report (address key : String) (amount : Float)
  | sync (number : Nat)

/-- What a submission sends to the worker, or the event that tells why it sends
nothing. -/
def messageOf (engine : Engine) : Submission → Except Event (Message Float)
  | .sync number => .ok (.sync number)
  | .report address key amount =>
      match engine.router.reportOn address key amount with
      | .feedback item => .ok (.feedback item)
      | .notFinite => .error (notFiniteEvent address key amount)
      | .unknownHost => .error {
          level := .trace
          target := "memroute_scheduler::auto"
          message := "feedback for unknown host dropped"
          fields := [("host", address)] }

/-- Send a message of the caller; there is no result while the mailbox has no room. -/
def send? (engine : Engine) (message : Message Float) : Option Engine :=
  (engine.router.dispatch.send? caller message).map engine.setDispatch

/-- Let there be no more passes.  One that goes on is to stop. -/
def endRounds (engine : Engine) : Engine :=
  match engine.activity with
  | .passing _ _ => { engine with activity := .stopping }
  | .stopping => engine
  | _ => { engine with activity := .off }

def stopPass (engine : Engine) : Engine :=
  { engine.setDispatch (engine.router.dispatch.forget .discovery) with activity := .off }

end Engine

end CacheRouting
