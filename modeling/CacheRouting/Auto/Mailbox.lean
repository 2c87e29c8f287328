/-!
# Bounded mailboxes

A mailbox holds a bounded number of messages, which are taken in the order in
which they came.  A sender that finds no room waits; whenever a message is
taken, a place is kept for the sender that has waited longest.
-/

namespace CacheRouting

/-- A mailbox and the senders that wait for room in it. -/
structure Mailbox (Sender Message : Type) where
  capacity : Nat
  queue : List Message
  /-- Senders that wait, the longest first. -/
  waiting : List Sender
  /-- Senders a place is kept for. -/
  reserved : List Sender

namespace Mailbox

variable {Sender Message : Type} [DecidableEq Sender]

/-- The largest capacity of a mailbox.  The places are counted in a word of which three
bits are kept for other ends. -/
def maxCapacity : Nat := UInt64.size / 8 - 1

def empty (capacity : Nat) : Mailbox Sender Message := ⟨capacity, [], [], []⟩

def hasRoom (mailbox : Mailbox Sender Message) : Bool :=
  mailbox.queue.length + mailbox.reserved.length < mailbox.capacity

def push (mailbox : Mailbox Sender Message) (message : Message) : Mailbox Sender Message :=
  { mailbox with queue := mailbox.queue ++ [message] }

def send? (mailbox : Mailbox Sender Message) (sender : Sender) (message : Message) :
    Option (Mailbox Sender Message) :=
  if sender ∈ mailbox.reserved then
    some ({ mailbox with reserved := mailbox.reserved.erase sender }.push message)
  else if mailbox.hasRoom then some (mailbox.push message)
  else none

def wait (mailbox : Mailbox Sender Message) (sender : Sender) : Mailbox Sender Message :=
  if sender ∈ mailbox.waiting then mailbox
  else { mailbox with waiting := mailbox.waiting ++ [sender] }

/-- Take the first message, and keep its place for the sender that has waited
longest. -/
def take? (mailbox : Mailbox Sender Message) : Option (Message × Mailbox Sender Message) :=
  match mailbox.queue with
  | [] => none
  | message :: queue =>
      match mailbox.waiting with
      | [] => some (message, { mailbox with queue })
      | sender :: waiting =>
          some (message,
            { mailbox with queue, waiting, reserved := mailbox.reserved ++ [sender] })

def forget (mailbox : Mailbox Sender Message) (sender : Sender) : Mailbox Sender Message :=
  { mailbox with
    waiting := mailbox.waiting.filter (· ≠ sender)
    reserved := mailbox.reserved.filter (· ≠ sender) }

end Mailbox

end CacheRouting
