/-
  BrokerTopology.Teardown — unbinding, deleting, and the last consumer
  leaving.

  Each of these is planned as a cascade on the topology as it stands,
  recorded as one entry, and only then carried out.

  Main statements:
    * `carryOut_ops` — what a cascade is recorded as.
    * `detachConsumer_of_none` — a queue without consumers has none to
      lose.
-/
import BrokerTopology.Cascade
import BrokerTopology.LiveState

namespace BrokerTopology

namespace LiveState

/-- Carry a planned cascade out. -/
def carryOut {α : Type} (s : LiveState) (c : Cascade) (answer : α) : Change α where
  answer := answer
  ops := c.ops
  live := s.remove c.removals

/-- Remove a binding, and an auto-delete exchange with its last. -/
def unbind (conn : ConnectionId) (b : Binding) : Decision Unit := fun s => do
  if b.exchange = Name.defaultExchange then .error (.accessRefused .defaultExchange)
  let _ ← s.queueFor conn b.queue
  let _ ← s.exchangeOf b.exchange
  if s.topology.bindings.contains b then
    .ok (s.carryOut (Cascade.removingBinding s.topology b) ())
  else .error (.notFound (.binding b))

/-- Delete a queue with its bindings.  The answer is how many messages are dropped with it. -/
def deleteQueue (conn : ConnectionId) (name : String) (ifUnused ifEmpty : Bool) :
    Decision Nat := fun s => do
  let _ ← s.queueFor conn name
  let consumers := s.topology.references.consumersOf name
  let messages := s.mailboxes.count name
  if ifUnused && 0 < consumers then
    .error (.preconditionFailed (.queueUnused name consumers))
  else if ifEmpty && 0 < messages then
    .error (.preconditionFailed (.queueEmpty name messages))
  else .ok (s.carryOut (Cascade.removingQueue s.topology name) messages)

/-- Delete an exchange with its bindings. -/
def deleteExchange (name : String) (ifUnused : Bool) : Decision Unit := fun s => do
  let x ← s.exchangeOf name
  let bindings := s.topology.references.bindingsOf name
  if x.builtin then .error (.accessRefused (.builtinExchange name))
  else if ifUnused && 0 < bindings then
    .error (.preconditionFailed (.exchangeUnused name bindings))
  else .ok (s.carryOut (Cascade.removingExchange s.topology name) ())

/-- One consumer of a queue fewer. -/
def dropConsumer (s : LiveState) (name : String) : LiveState :=
  match s.topology.references.consumerRemoved? name with
  | none => s
  | some (_, references) => s.withTopology { s.topology with references }

/-- A consumer leaves a queue; an auto-delete queue goes with its last.  A consumer that
joined an earlier queue of the name finds no queue.  The answer is how many stay. -/
def detachConsumer (name : String) (incarnation : Option Nat) : Decision Nat := fun s =>
  match s.topology.registry.queue? name with
  | none => .error (.noQueue name)
  | some q =>
    -- without an incarnation the queue that is there now is meant
    if incarnation.any (· != q.incarnation) then .error (.noQueue name)
    else
      match s.topology.references.consumersOf name with
      -- nobody to leave: not even an auto-delete queue goes
      | 0 => .ok (s.keep 0)
      | remaining + 1 =>
        let c : Cascade :=
          if remaining = 0 && q.definition.autoDelete then Cascade.removingQueue s.topology name
          else {}
        -- the count goes down first, and is forgotten with the queue if that goes
        .ok { answer := remaining, ops := c.ops, live := (s.dropConsumer name).remove c.removals }

theorem carryOut_ops {α : Type} (s : LiveState) (c : Cascade) (answer : α) :
    (s.carryOut c answer).ops = c.ops := rfl

theorem detachConsumer_of_none {name : String} {s : LiveState} {q : Queue}
    (hq : s.topology.registry.queue? name = some q)
    (hcount : s.topology.references.consumersOf name = 0) :
    detachConsumer name none s = .ok (s.keep 0) := by
  simp [detachConsumer, hq, hcount]

end LiveState

end BrokerTopology
