import CacheRouting.Auto.Listing
import CacheRouting.Host

/-!
# What hosts answer

Discovery asks hosts one probe after the other.  How a host will answer is given
in advance: how long each of its calls takes, which of them break off, and what it
says to each probe, the last answer to a probe being repeated.
-/

namespace CacheRouting

inductive Reply
  | miss
  | body (bytes : List UInt8)
  | failed
  deriving DecidableEq

inductive Answer
  /-- The call breaks off and takes the whole pass with it. -/
  | broken
  | replied (reply : Reply)
  deriving DecidableEq

/-- A call that takes some milliseconds and then comes to its end. -/
structure Call where
  delay : Nat
  answer : Answer
  deriving DecidableEq

/-- A host and all its future answers. -/
structure Responder where
  host : Host
  /-- The calls, counted from zero, that break off. -/
  brokenCalls : List Nat
  /-- How long each call takes, in milliseconds. -/
  delay : Nat → Nat
  /-- Whether every call fails. -/
  fails : Bool
  /-- The answers to each probe that has any; others are missed. -/
  answers : List (String × List Reply)
  /-- How often the host has been asked. -/
  calls : Nat
  /-- The last probe it has been asked. -/
  lastProbe : Option String

namespace Responder

def nextReply : List Reply → Reply
  | [] => .miss
  | reply :: _ => reply

def laterReplies : List Reply → List Reply
  | _ :: later :: rest => later :: rest
  | replies => replies

def repliesTo (responder : Responder) (probe : String) : List Reply :=
  ((responder.answers.find? fun answer => answer.1 == probe).map (·.2)).getD []

/-- Note that the host is asked a probe, which uses up the next reply to it. -/
def count (responder : Responder) (probe : String) : Responder :=
  { responder with
    answers := responder.answers.map fun answer =>
      if answer.1 == probe then (answer.1, laterReplies answer.2) else answer
    calls := responder.calls + 1
    lastProbe := some probe }

/-- What the host says when it is asked a probe, unless the call breaks off. -/
def replyTo (responder : Responder) (probe : String) : Reply :=
  if responder.fails then .failed else nextReply (responder.repliesTo probe)

def nextCall (responder : Responder) (probe : String) : Call where
  delay := responder.delay responder.calls
  answer :=
    if responder.calls ∈ responder.brokenCalls then .broken
    else .replied (responder.replyTo probe)

def ask (responder : Responder) (probe : String) : Call × Responder :=
  (responder.nextCall probe, responder.count probe)

end Responder

end CacheRouting
