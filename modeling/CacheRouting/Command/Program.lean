import CacheRouting.Command.Help
import CacheRouting.Config.Decode
import CacheRouting.Config.Render
import CacheRouting.Config.Scaffold
import CacheRouting.Document.Pretty
import CacheRouting.Routing.Build
import CacheRouting.Routing.Query

/-!
# Commands

A command reads files, logs what it does and prints an answer.  The log files are
open before the scheduler is built, so that what goes wrong there can be logged.
-/

namespace CacheRouting

namespace Command

inductive Ending
  | success
  | failure
  /-- The command line is wrong. -/
  | misuse
  /-- The command breaks off. -/
  | broken
  /-- The command goes on until it is interrupted. -/
  | keepsRunning
  deriving DecidableEq, Repr

/-- How a command ends, what it prints, and what it leaves stored. -/
structure Outcome where
  ending : Ending
  output : String
  world : LogWorld

def Outcome.silent (ending : Ending) (world : LogWorld) : Outcome := ⟨ending, "", world⟩

/-- A configuration whose log files are open. -/
structure Session where
  config : Config
  subscriber : Subscriber
  world : LogWorld

def Session.log (session : Session) (events : List Event) : Session :=
  { session with world := events.foldl session.subscriber.log session.world }

/-- Read a configuration and open its log files.  On failure there is the world as it
is left. -/
def openSession (environment : Option String) (path : String) (world : LogWorld) :
    Except LogWorld Session :=
  match world.store.storage.readText path with
  | .error _ => .error world
  | .ok text =>
      match Config.parse text with
      | .error _ => .error world
      | .ok config =>
          match Subscriber.setUp environment config.log world.store with
          | (.error _, store) => .error { world with store }
          | (.ok subscriber, store) => .ok ⟨config, subscriber, { world with store }⟩

/-- Build the scheduler of a session and log that it is built.  Without one there is the
way in which the command ends. -/
def buildScheduler (session : Session) (discovery : Config.DiscoverySection) :
    Except Ending (Scheduler × Session) :=
  match Scheduler.build session.config.scheduler discovery true with
  | .error _ => .error .failure
  | .broken => .error .broken
  | .ok scheduler =>
      .ok (scheduler,
        session.log (scheduler.constructionEvents discovery.options ++ [scheduler.builtEvent]))

/-- Answer a question about keys.  Discovery is off: the answer is out long before a
host could be asked. -/
def answer (environment : Option String) (path : String) (world : LogWorld)
    (respond : Scheduler → Session → Option (String × Session)) : Outcome :=
  match openSession environment path world with
  | .error world => .silent .failure world
  | .ok session =>
      match buildScheduler session { session.config.discovery with enabled := some false } with
      | .error ending => .silent ending session.world
      | .ok (scheduler, session) =>
          match respond scheduler session with
          | none => .silent .broken session.world
          | some (output, session) => ⟨.success, output ++ "\n", session.world⟩

def perform (environment : Option String) (world : LogWorld) : Request → Outcome
  | .init kind =>
      match (Config.scaffold kind).render? with
      | some text => ⟨.success, text, world⟩
      | none => .silent .failure world
  | .route path keys =>
      answer environment path world fun scheduler session =>
        some (Document.prettyDictionary (Query.route scheduler keys),
          session.log (Query.routeEvents scheduler keys))
  | .divide path keys =>
      answer environment path world fun scheduler session =>
        (Query.divide? scheduler keys).map fun groups =>
          (Document.prettyGroups groups, session.log [Query.divideEvent keys groups.length])
  | .run path _ =>
      match openSession environment path world with
      | .error world => .silent .failure world
      | .ok session =>
          let started := session.log [{
            level := .info
            target := "memrouted::daemon"
            message := "memroute daemon starting"
            fields := [("config", path)] }]
          match buildScheduler started session.config.discovery with
          | .error ending => .silent ending started.world
          | .ok (_, session) => .silent .keepsRunning session.world

def run (environment : Option String) (world : LogWorld) (arguments : List String) : Outcome :=
  match read arguments with
  | .refused => .silent .misuse world
  | .help topic => ⟨.success, topic.text, world⟩
  | .request request => perform environment world request

end Command

end CacheRouting
