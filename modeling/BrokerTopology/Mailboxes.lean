/-
  BrokerTopology.Mailboxes — the messages waiting in each queue.

  A queue hands its messages out in the order they came in.  A queue
  with nothing waiting has no entry, so two collections are equal
  exactly when the same messages wait in the same queues.

  Main statements:
    * `pending_set` — setting one queue's messages changes that queue
      only.
    * `pending_push` — a message goes to the end of its queue.
    * `pending_deliver` — and once into every queue that it is for.
-/
import BrokerTopology.Name

namespace BrokerTopology

/-- A published message as a fetch hands it out. -/
structure Message where
  exchange : String
  routingKey : String
  payload : ByteArray

instance : DecidableEq Message := fun a b =>
  decidable_of_iff
    (a.exchange = b.exchange ∧ a.routingKey = b.routingKey ∧ a.payload.data = b.payload.data)
    (by
      obtain ⟨exchange, routingKey, ⟨payload⟩⟩ := a
      obtain ⟨exchange', routingKey', ⟨payload'⟩⟩ := b
      simp)

/-- The messages waiting in each queue, the oldest first. -/
structure Mailboxes where
  waiting : NameMap (List Message) := ∅
deriving DecidableEq

namespace Mailboxes

/-- Nothing waits anywhere. -/
def empty : Mailboxes := {}

/-- The messages waiting in a queue, the oldest first. -/
def pending (m : Mailboxes) (queue : String) : List Message :=
  m.waiting[queue]?.getD []

/-- Set the messages waiting in a queue. -/
def set (m : Mailboxes) (queue : String) (messages : List Message) : Mailboxes where
  waiting := if messages.isEmpty then m.waiting.erase queue else m.waiting.insert queue messages

/-- How many messages wait in a queue. -/
def count (m : Mailboxes) (queue : String) : Nat :=
  (m.pending queue).length

/-- Put a message at the end of a queue. -/
def push (m : Mailboxes) (queue : String) (message : Message) : Mailboxes :=
  m.set queue (m.pending queue ++ [message])

/-- Take the oldest message of a queue. -/
def pop (m : Mailboxes) (queue : String) : Option Message × Mailboxes :=
  match m.pending queue with
  | [] => (none, m)
  | message :: rest => (some message, m.set queue rest)

/-- Discard the messages of a queue. -/
def clear (m : Mailboxes) (queue : String) : Mailboxes :=
  m.set queue []

/-- Put a copy of a message at the end of each of some queues. -/
def deliver (m : Mailboxes) (queues : NameSet) (message : Message) : Mailboxes :=
  queues.toList.foldl (fun boxes queue => boxes.push queue message) m

@[simp] theorem pending_set (m : Mailboxes) (queue other : String) (messages : List Message) :
    (m.set queue messages).pending other =
      if queue = other then messages else m.pending other := by
  cases messages <;> by_cases h : queue = other <;>
    simp [pending, set, h, Std.ExtTreeMap.getElem?_erase, Std.ExtTreeMap.getElem?_insert]

theorem pending_push (m : Mailboxes) (queue other : String) (message : Message) :
    (m.push queue message).pending other =
      if queue = other then m.pending queue ++ [message] else m.pending other := by
  simp [push]

theorem pending_clear (m : Mailboxes) (queue other : String) :
    (m.clear queue).pending other = if queue = other then [] else m.pending other := by
  simp [clear]

/-- The oldest message is handed out. -/
theorem pop_fst (m : Mailboxes) (queue : String) : (m.pop queue).1 = (m.pending queue).head? := by
  unfold pop
  split
  next hnone => rw [hnone, List.head?_nil]
  next hsome => rw [hsome, List.head?_cons]

theorem pending_pop (m : Mailboxes) (queue other : String) :
    (m.pop queue).2.pending other =
      if queue = other then (m.pending queue).tail else m.pending other := by
  unfold pop
  split
  next hnone =>
    by_cases h : queue = other
    · subst h
      simp [hnone]
    · simp [h]
  next hsome => simp [hsome]

/-- Every queue that a message is delivered to has one copy more of it. -/
theorem pending_deliver (m : Mailboxes) (queues : NameSet) (message : Message) (queue : String) :
    (m.deliver queues message).pending queue =
      if queue ∈ queues then m.pending queue ++ [message] else m.pending queue := by
  have hlist : ∀ (names : List String) (boxes : Mailboxes), names.Nodup →
      (names.foldl (fun boxes name => boxes.push name message) boxes).pending queue =
        if queue ∈ names then boxes.pending queue ++ [message] else boxes.pending queue := by
    intro names
    induction names with
    | nil => simp
    | cons name names ih =>
      intro boxes hnodup
      obtain ⟨hnew, hnodup⟩ := List.nodup_cons.1 hnodup
      rw [List.foldl_cons, ih _ hnodup, pending_push]
      by_cases h : name = queue
      · subst h
        simp [hnew]
      · simp [h, Ne.symm h]
  have hnodup : queues.toList.Nodup := by
    refine Std.ExtTreeSet.distinct_toList.imp ?_
    intro name other hne heq
    exact hne (heq ▸ Std.ReflCmp.compare_self)
  rw [deliver, hlist _ _ hnodup]
  simp

end Mailboxes

end BrokerTopology
