import CacheRouting.Auto.Mailbox
import CacheRouting.Ranking.Table

/-!
# From reports to published orders

Reports wait in a mailbox.  One worker takes them in order, counts each in the
routing table, and publishes the bucket it touched.  A sync in the mailbox is
answered when the worker comes to it, so that everything sent before it has been
counted and published by then.

Taking, counting and publishing are steps of their own, and between any two of
them readers may load buckets and senders may send.
-/

namespace CacheRouting

inductive Sender
  /-- Callers are told apart by numbers. -/
  | caller (number : Nat)
  | discovery
  deriving DecidableEq, Repr

inductive Message (W : Type)
  | feedback (item : Feedback W)
  /-- A question to be answered, by its number, when all before it is done. -/
  | sync (number : Nat)
  deriving DecidableEq

inductive Hand (W : Type)
  | empty
  /-- A message that has been taken from the mailbox. -/
  | holding (message : Message W)
  /-- A report that has been counted, whose bucket is to be published. -/
  | counted (item : Feedback W)
  deriving DecidableEq

/-- The worker's table, the published table, the mailbox between callers and
worker, and what the worker has in hand. -/
structure Dispatch (W : Type) where
  table : RoutingTable W
  published : RoutingTable W
  mailbox : Mailbox Sender (Message W)
  hand : Hand W
  /-- The numbers of the syncs that have been answered, the latest first. -/
  answered : List Nat

namespace Dispatch

variable {W : Type} [Weight W]

def initial (hostCount bucketCount capacity : Nat) : Dispatch W where
  table := RoutingTable.initial hostCount bucketCount
  published := RoutingTable.initial hostCount bucketCount
  mailbox := Mailbox.empty (max capacity 1)
  hand := .empty
  answered := []

def send? (dispatch : Dispatch W) (sender : Sender) (message : Message W) :
    Option (Dispatch W) :=
  (dispatch.mailbox.send? sender message).map fun mailbox => { dispatch with mailbox }

def wait (dispatch : Dispatch W) (sender : Sender) : Dispatch W :=
  { dispatch with mailbox := dispatch.mailbox.wait sender }

def forget (dispatch : Dispatch W) (sender : Sender) : Dispatch W :=
  { dispatch with mailbox := dispatch.mailbox.forget sender }

def takeUp? (dispatch : Dispatch W) : Option (Dispatch W) :=
  dispatch.mailbox.take?.map fun (message, mailbox) =>
    { dispatch with mailbox, hand := .holding message }

/-- Count a report in the worker's table.  A report on what the table does not have
leaves nothing to publish. -/
def count (dispatch : Dispatch W) (item : Feedback W) : Dispatch W :=
  let (applied, table) := dispatch.table.apply item
  { dispatch with table, hand := if applied then .counted item else .empty }

def publish (dispatch : Dispatch W) (bucket : Nat) : Dispatch W :=
  match dispatch.table.view? bucket with
  | some view =>
      { dispatch with published := dispatch.published.store bucket view, hand := .empty }
  | none => { dispatch with hand := .empty }

def answer (dispatch : Dispatch W) (number : Nat) : Dispatch W :=
  { dispatch with answered := number :: dispatch.answered, hand := .empty }

/-- Let the worker make its next step, unless it waits for a message. -/
def step? (dispatch : Dispatch W) : Option (Dispatch W) :=
  match dispatch.hand with
  | .empty => dispatch.takeUp?
  | .holding (.feedback item) => some (dispatch.count item)
  | .holding (.sync number) => some (dispatch.answer number)
  | .counted item => some (dispatch.publish item.bucket)

def publishCounted (dispatch : Dispatch W) : Dispatch W :=
  match dispatch.hand with
  | .counted item => dispatch.publish item.bucket
  | _ => dispatch

def perform (dispatch : Dispatch W) : Message W → Dispatch W
  | .feedback item => (dispatch.count item).publishCounted
  | .sync number => dispatch.answer number

/-- Take one message from the mailbox and do all it asks for. -/
def work? (dispatch : Dispatch W) : Option (Dispatch W) :=
  match dispatch.mailbox.take? with
  | none => none
  | some (message, mailbox) => some ({ dispatch with mailbox }.perform message)

def load? (dispatch : Dispatch W) (bucket : Nat) : Option (BucketView W) :=
  dispatch.published.view? bucket

end Dispatch

end CacheRouting
