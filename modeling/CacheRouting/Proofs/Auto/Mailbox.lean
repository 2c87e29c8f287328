import CacheRouting.Auto.Mailbox

/-!
# Order and room in a mailbox

What is sent joins the end of the queue and what is taken leaves from its front;
nothing else moves a message.  Messages and the places kept for senders never
outnumber the places there are, whoever waits and whoever gives up waiting.
Nobody has a place or waits for one who has not asked for it.
-/

namespace CacheRouting

namespace Mailbox

variable {Sender Message : Type} [DecidableEq Sender] {mailbox next : Mailbox Sender Message}

theorem queue_of_send? {sender : Sender} {message : Message}
    (sent : mailbox.send? sender message = some next) :
    next.queue = mailbox.queue ++ [message] := by
  unfold send? at sent
  split at sent
  · cases sent
    rfl
  · split at sent
    · cases sent
      rfl
    · cases sent

omit [DecidableEq Sender] in
theorem queue_of_take? {message : Message} (taken : mailbox.take? = some (message, next)) :
    mailbox.queue = message :: next.queue := by
  unfold take? at taken
  split at taken
  · cases taken
  · next first rest queueEq =>
    split at taken <;> cases taken <;> exact queueEq

omit [DecidableEq Sender] in
theorem take?_eq_none_iff : mailbox.take? = none ↔ mailbox.queue = [] := by
  unfold take?
  cases mailbox.queue with
  | nil => simp
  | cons message queue => cases mailbox.waiting <;> simp

@[simp]
theorem queue_wait (mailbox : Mailbox Sender Message) (sender : Sender) :
    (mailbox.wait sender).queue = mailbox.queue := by
  unfold wait
  split <;> rfl

/-- At least one place, and no more messages and kept places than places. -/
structure IsBounded (mailbox : Mailbox Sender Message) (capacity : Nat) : Prop where
  capacity_eq : mailbox.capacity = capacity
  length_le : mailbox.queue.length + mailbox.reserved.length ≤ capacity

omit [DecidableEq Sender] in
theorem isBounded_empty (capacity : Nat) :
    (empty capacity : Mailbox Sender Message).IsBounded capacity where
  capacity_eq := rfl
  length_le := Nat.zero_le capacity

variable {capacity : Nat}

theorem IsBounded.send? (bounded : mailbox.IsBounded capacity) {sender : Sender}
    {message : Message} (sent : mailbox.send? sender message = some next) :
    next.IsBounded capacity := by
  have fits := bounded.length_le
  unfold Mailbox.send? at sent
  split at sent
  · next kept =>
    cases sent
    refine ⟨bounded.capacity_eq, ?_⟩
    have released := List.length_erase_of_mem kept
    have positive := List.length_pos_of_mem kept
    simp only [push, List.length_append, List.length_singleton]
    omega
  · split at sent
    · next room =>
      cases sent
      refine ⟨bounded.capacity_eq, ?_⟩
      have free : mailbox.queue.length + mailbox.reserved.length < capacity := by
        simpa [hasRoom, bounded.capacity_eq] using room
      simp only [push, List.length_append, List.length_singleton]
      omega
    · cases sent

omit [DecidableEq Sender] in
theorem IsBounded.take? (bounded : mailbox.IsBounded capacity) {message : Message}
    (taken : mailbox.take? = some (message, next)) : next.IsBounded capacity := by
  have fits := bounded.length_le
  unfold Mailbox.take? at taken
  split at taken
  · cases taken
  · next first rest queueEq =>
    rw [queueEq, List.length_cons] at fits
    split at taken <;> cases taken
    · have shorter : rest.length + mailbox.reserved.length ≤ capacity := by omega
      exact ⟨bounded.capacity_eq, shorter⟩
    · refine ⟨bounded.capacity_eq, ?_⟩
      simp only [List.length_append, List.length_singleton]
      omega

theorem IsBounded.wait (bounded : mailbox.IsBounded capacity) (sender : Sender) :
    (mailbox.wait sender).IsBounded capacity := by
  unfold Mailbox.wait
  split
  · exact bounded
  · exact ⟨bounded.capacity_eq, bounded.length_le⟩

theorem IsBounded.forget (bounded : mailbox.IsBounded capacity) (sender : Sender) :
    (mailbox.forget sender).IsBounded capacity where
  capacity_eq := bounded.capacity_eq
  length_le := by
    have kept := List.length_filter_le (· ≠ sender) mailbox.reserved
    have fits := bounded.length_le
    simp only [Mailbox.forget]
    omega

omit [DecidableEq Sender] in
/-- The senders that have a place or wait for one. -/
def senders (mailbox : Mailbox Sender Message) : List Sender :=
  mailbox.reserved ++ mailbox.waiting

omit [DecidableEq Sender] in
@[simp]
theorem senders_empty (capacity : Nat) :
    (empty capacity : Mailbox Sender Message).senders = [] :=
  rfl

theorem senders_send?_subset {sender : Sender} {message : Message}
    (sent : mailbox.send? sender message = some next) : next.senders ⊆ mailbox.senders := by
  unfold send? at sent
  split at sent
  · cases sent
    exact List.append_subset.mpr
      ⟨List.Subset.trans List.erase_subset (List.subset_append_left ..), List.subset_append_right ..⟩
  · split at sent <;> cases sent
    exact List.Subset.refl _

omit [DecidableEq Sender] in
theorem senders_take?_subset {message : Message}
    (taken : mailbox.take? = some (message, next)) : next.senders ⊆ mailbox.senders := by
  unfold take? at taken
  split at taken
  · cases taken
  · next first rest queueEq =>
    cases waitingEq : mailbox.waiting with
    | nil =>
        simp only [waitingEq, Option.some.injEq, Prod.mk.injEq] at taken
        obtain ⟨-, rfl⟩ := taken
        simp [senders, waitingEq]
    | cons sender waiting =>
        simp only [waitingEq, Option.some.injEq, Prod.mk.injEq] at taken
        obtain ⟨-, rfl⟩ := taken
        simp [senders, waitingEq]

theorem eq_or_mem_of_mem_senders_wait {sender other : Sender}
    (member : other ∈ (mailbox.wait sender).senders) :
    other = sender ∨ other ∈ mailbox.senders := by
  unfold wait at member
  split at member
  · exact Or.inr member
  · simp only [senders, List.mem_append, List.mem_singleton] at member ⊢
    rcases member with kept | waits | isNew
    · exact Or.inr (Or.inl kept)
    · exact Or.inr (Or.inr waits)
    · exact Or.inl isNew

theorem mem_senders_forget {sender other : Sender} :
    other ∈ (mailbox.forget sender).senders ↔ other ∈ mailbox.senders ∧ other ≠ sender := by
  simp only [senders, forget, List.mem_append, List.mem_filter, decide_eq_true_eq, or_and_right]

/-- A sender finds room when nothing is queued and no place is kept for others. -/
theorem isSome_send?_of_queue_eq_nil (bounded : mailbox.IsBounded capacity)
    (positive : 0 < capacity) (isEmpty : mailbox.queue = []) {sender : Sender}
    (own : ∀ other ∈ mailbox.senders, other = sender) (message : Message) :
    (mailbox.send? sender message).isSome = true := by
  unfold send?
  split
  · rfl
  · next notKept =>
    have noneKept : mailbox.reserved = [] := by
      apply List.eq_nil_iff_forall_not_mem.mpr
      intro other member
      exact notKept (own other (List.mem_append_left _ member) ▸ member)
    have room : mailbox.hasRoom = true := by
      simpa [hasRoom, isEmpty, noneKept, bounded.capacity_eq] using positive
    rw [if_pos room]
    rfl

end Mailbox

end CacheRouting
