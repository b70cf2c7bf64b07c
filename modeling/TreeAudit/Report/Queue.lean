/-!
A bounded queue between senders and one receiver: first in, first out, with room
for at least one element. Sending to a receiver that has gone is refused. What
is waiting can still be received when all senders have gone.
-/

set_option autoImplicit false
set_option relaxedAutoImplicit false

namespace TreeAudit.Report

structure Queue (α : Type) where
  capacity : Nat
  waiting : List α
  senders : Nat
  hasReceiver : Bool
  capacity_pos : 0 < capacity
  waiting_le : waiting.length ≤ capacity

namespace Queue

variable {α : Type}

/-- An empty queue with one sender; a capacity of zero counts as one. -/
def ofCapacity (capacity : Nat) : Queue α where
  capacity := max capacity 1
  waiting := []
  senders := 1
  hasReceiver := true
  capacity_pos := Nat.le_max_right capacity 1
  waiting_le := Nat.zero_le _

/-- What became of a call: it has its result, it was refused because the other
side has gone, or it has to wait for the other side. -/
inductive Reply (β : Type) where
  | done (result : β)
  | gone
  | waits

def send (queue : Queue α) (element : α) : Reply (Queue α) :=
  if !queue.hasReceiver then .gone
  else if h : queue.waiting.length < queue.capacity then
    .done { queue with
      waiting := queue.waiting ++ [element]
      waiting_le := by simpa [Nat.succ_le_iff] using h }
  else .waits

/-- An element that is accepted waits behind the others. -/
theorem waiting_of_send {queue next : Queue α} {element : α}
    (h : queue.send element = .done next) :
    next.waiting = queue.waiting ++ [element] ∧ next.capacity = queue.capacity ∧
      next.senders = queue.senders ∧ queue.hasReceiver = true ∧ next.hasReceiver = true := by
  unfold send at h
  split at h
  · cases h
  · next hreceiver =>
    rw [Bool.not_eq_true', Bool.not_eq_false] at hreceiver
    split at h
    · obtain rfl := Reply.done.inj h
      exact ⟨rfl, rfl, rfl, hreceiver, hreceiver⟩
    · cases h

/-- An element is refused just because there is nobody to receive it. -/
theorem send_eq_gone_iff {queue : Queue α} {element : α} :
    queue.send element = .gone ↔ queue.hasReceiver = false := by
  unfold send
  cases queue.hasReceiver with
  | false => simp
  | true =>
    simp only [Bool.not_true, Bool.false_eq_true, if_false]
    split <;> simp

/-- A sender does not have to wait where nothing is waiting, or where nobody receives. -/
theorem send_ne_waits {queue : Queue α} (h : queue.waiting = [] ∨ queue.hasReceiver = false)
    (element : α) : queue.send element ≠ .waits := by
  unfold send
  split
  · exact nofun
  · next hreceiver =>
    have hempty : queue.waiting = [] :=
      h.resolve_right fun hgone ↦ hreceiver (by rw [hgone]; rfl)
    rw [dif_pos (by rw [hempty]; exact queue.capacity_pos)]
    exact nofun

def receive (queue : Queue α) : Reply (α × Queue α) :=
  match h : queue.waiting with
  | first :: rest =>
    .done (first, { queue with
      waiting := rest
      waiting_le := by have := queue.waiting_le; simp only [h, List.length_cons] at this; omega })
  | [] => if queue.senders = 0 then .gone else .waits

/-- What is received has waited longest. -/
theorem waiting_of_receive {queue next : Queue α} {first : α}
    (h : queue.receive = .done (first, next)) :
    queue.waiting = first :: next.waiting ∧ next.capacity = queue.capacity ∧
      next.senders = queue.senders ∧ next.hasReceiver = queue.hasReceiver := by
  unfold receive at h
  split at h
  · next front rest hwaiting =>
    obtain ⟨rfl, rfl⟩ := Prod.mk.inj (Reply.done.inj h)
    exact ⟨hwaiting, rfl, rfl, rfl⟩
  · split at h <;> cases h

/-- Nothing is received any more only if nothing waits and every sender has gone. -/
theorem empty_of_receive_gone {queue : Queue α} (h : queue.receive = .gone) :
    queue.waiting = [] ∧ queue.senders = 0 := by
  unfold receive at h
  split at h
  · cases h
  · next hwaiting =>
    split at h
    · exact ⟨hwaiting, ‹_›⟩
    · cases h

/-- A receiver does not have to wait for what is waiting, or when every sender has gone. -/
theorem receive_ne_waits {queue : Queue α} (h : queue.waiting ≠ [] ∨ queue.senders = 0) :
    queue.receive ≠ .waits := by
  unfold receive
  split
  · exact nofun
  · next hwaiting =>
    rw [if_pos (h.resolve_left fun hsome ↦ hsome hwaiting)]
    exact nofun

/-- A sender hands out another handle to send by. -/
def addSender (queue : Queue α) : Queue α := { queue with senders := queue.senders + 1 }

def dropSender (queue : Queue α) : Queue α := { queue with senders := queue.senders - 1 }

theorem dropSender_addSender (queue : Queue α) : queue.addSender.dropSender = queue := rfl

/-- With one more sender the receiver is not told that all have gone. -/
theorem receive_addSender_ne_gone (queue : Queue α) : queue.addSender.receive ≠ .gone :=
  fun hgone ↦ absurd (empty_of_receive_gone hgone).2 (Nat.succ_ne_zero _)

/-- What is waiting is lost with the receiver. -/
def dropReceiver (queue : Queue α) : Queue α :=
  { queue with waiting := [], hasReceiver := false, waiting_le := Nat.zero_le _ }

end Queue

end TreeAudit.Report
