/-
  BrokerTopology.Traffic — consumers joining, and messages passing
  through.

  A message goes to every queue that its routing key reaches, once.
  Nothing here is recorded: messages and consumers do not outlive the
  broker.

  Main statements:
    * `mem_destinations_default` — the default exchange reaches the
      queue that the key names.
    * `publish_ops` — to publish records nothing.
-/
import BrokerTopology.LiveState
import BrokerTopology.Routing

namespace BrokerTopology

namespace LiveState

/-- A consumer joins a queue.  The answer is how many there are now, and which queue of the
name it is. -/
def attachConsumer (conn : ConnectionId) (name : String) : Decision (Nat × Nat) := fun s => do
  let q ← s.queueFor conn name
  let references := s.topology.references.consumerAdded name
  .ok
    { answer := (references.consumersOf name, q.incarnation)
      live := s.withTopology { s.topology with references } }

/-- The queues that a routing key reaches through an exchange. -/
def destinations (matcher : Matcher) (s : LiveState) (x : Exchange) (key : String) : NameSet :=
  let registry := s.topology.registry
  let name := x.definition.name
  -- every queue is bound to the default exchange under its own name
  if name = Name.defaultExchange then if registry.hasQueue key then {key} else ∅
  else
    (matcher x.definition.kind (s.topology.bindings.ofExchange name) key).filter
      registry.hasQueue

/-- The queues that a message would reach. -/
def route (matcher : Matcher) (exchange key : String) : Decision NameSet := fun s => do
  let x ← s.exchangeOf exchange
  .ok (s.keep (s.destinations matcher x key))

/-- Put a message into every queue that it reaches.  The answer is how many those are. -/
def publish (matcher : Matcher) (message : Message) : Decision Nat := fun s => do
  let x ← s.exchangeOf message.exchange
  let queues := s.destinations matcher x message.routingKey
  .ok
    { answer := queues.size
      live := { s with mailboxes := s.mailboxes.deliver queues message } }

/-- Take the oldest message out of a queue. -/
def fetch (conn : ConnectionId) (name : String) : Decision (Option Message) := fun s => do
  let _ ← s.queueFor conn name
  let (message, mailboxes) := s.mailboxes.pop name
  .ok { answer := message, live := { s with mailboxes } }

/-- Discard the messages of a queue.  The answer is how many they are. -/
def purge (conn : ConnectionId) (name : String) : Decision Nat := fun s => do
  let _ ← s.queueFor conn name
  .ok
    { answer := s.mailboxes.count name
      live := { s with mailboxes := s.mailboxes.clear name } }

theorem mem_destinations_default {matcher : Matcher} {s : LiveState} {x : Exchange}
    (hx : x.definition.name = Name.defaultExchange) {key queue : String} :
    queue ∈ s.destinations matcher x key ↔
      queue = key ∧ s.topology.registry.hasQueue key = true := by
  by_cases h : s.topology.registry.hasQueue key = true
  · simp [destinations, hx, h]
    exact eq_comm
  · simp [destinations, hx, h]

theorem publish_ops {matcher : Matcher} {message : Message} {s : LiveState} {change : Change Nat}
    (h : publish matcher message s = .ok change) : change.ops = [] := by
  unfold publish at h
  cases hx : s.exchangeOf message.exchange with
  | error e => simp [hx, Bind.bind, Except.bind] at h
  | ok x =>
    simp only [hx, Bind.bind, Except.bind, Except.ok.injEq] at h
    rw [← h]

end LiveState

end BrokerTopology
