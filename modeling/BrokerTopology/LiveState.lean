/-
  BrokerTopology.LiveState — what a running broker keeps in memory, and
  how an operation changes it.

  An operation is decided first: it is refused, or it comes to a change.
  A change says what to answer, what to record and what to keep in
  memory from then on; nothing of it holds before it is recorded.

  Main statements:
    * `withNames_eq_self` — of a change that could not be recorded nothing
      stays but the names that it drew, if any.
-/
import BrokerTopology.Refusal
import BrokerTopology.Cascade

namespace BrokerTopology

/-- Everything that a running broker keeps in memory. -/
structure LiveState where
  topology : Topology
  mailboxes : Mailboxes := .empty
deriving DecidableEq

/-- What an operation comes to. -/
structure Change (α : Type) where
  answer : α
  /-- The durable changes, to be recorded as one. -/
  ops : List DurableOp := []
  live : LiveState

/-- An operation on what is in memory: refused, or a change. -/
abbrev Decision (α : Type) := LiveState → Except Refusal (Change α)

namespace Decision

/-- The same decision with another answer. -/
def map {α β : Type} (f : α → β) (d : Decision α) : Decision β := fun s =>
  (d s).map fun change => { change with answer := f change.answer }

end Decision

namespace LiveState

/-- An answer that changes nothing. -/
def keep {α : Type} (s : LiveState) (answer : α) : Change α := { answer, live := s }

/-- The state with another topology. -/
def withTopology (s : LiveState) (t : Topology) : LiveState := { s with topology := t }

/-- The state with the name generator of another. -/
def withNames (s other : LiveState) : LiveState :=
  s.withTopology { s.topology with
    registry := { s.topology.registry with names := other.topology.registry.names } }

/-- The queue of a name, if a connection may use it. -/
def queueFor (s : LiveState) (conn : ConnectionId) (name : String) : Except Refusal Queue :=
  match s.topology.registry.queue? name with
  | none => .error (.noQueue name)
  | some q => if q.accessibleBy conn then .ok q else .error (.resourceLocked name)

/-- The exchange of a name. -/
def exchangeOf (s : LiveState) (name : String) : Except Refusal Exchange :=
  match s.topology.registry.exchange? name with
  | none => .error (.noExchange name)
  | some x => .ok x

/-- Carry out removals, one after the other. -/
def remove (s : LiveState) (removals : List Removal) : LiveState where
  topology := removals.foldl Topology.remove s.topology
  mailboxes := removals.foldl Mailboxes.remove s.mailboxes

theorem withNames_eq_self {s other : LiveState}
    (h : other.topology.registry.names = s.topology.registry.names) : s.withNames other = s := by
  unfold withNames
  rw [h]
  rfl

theorem queueFor_admin (s : LiveState) (name : String) :
    s.queueFor .admin name =
      match s.topology.registry.queue? name with
      | none => .error (.noQueue name)
      | some q => .ok q := by
  unfold queueFor
  split <;> simp [Queue.accessibleBy_admin]

end LiveState

end BrokerTopology
