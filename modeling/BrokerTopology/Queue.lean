/-
  BrokerTopology.Queue — queues, and the connections that may own one.

  An exclusive queue belongs to the connection that declared it and is
  closed to every other; the administrative context may use any queue.
  Only queues that are durable and not exclusive outlive the broker.

  Every record carries an incarnation, a number that the registry gives
  to no second record: it tells a queue from an earlier one of the same
  name.

  Main statements:
    * `Queue.accessibleBy_admin` — the administrative context may use
      any queue.
    * `Queue.accessibleBy_iff` — another connection may use it exactly
      when nobody else owns it.
-/
import BrokerTopology.Exchange

namespace BrokerTopology

/-- The connection a request arrives on. -/
structure ConnectionId where
  number : Nat
deriving DecidableEq, Repr

/-- The context of requests that arrive on no connection. -/
def ConnectionId.admin : ConnectionId := ⟨0⟩

/-- How a connection is written. -/
def ConnectionId.label (conn : ConnectionId) : String :=
  "conn-" ++ toString conn.number

/-- The parameters a queue is declared with. -/
structure QueueDef where
  name : String
  durable : Bool
  exclusive : Bool
  autoDelete : Bool
deriving DecidableEq, Repr

/-- Whether a queue outlives its broker: an exclusive one ends with its connection. -/
def QueueDef.persistent (d : QueueDef) : Bool :=
  d.durable && !d.exclusive

/-- A queue as the registry records it. -/
structure Queue where
  definition : QueueDef
  /-- The connection that declared an exclusive queue. -/
  owner : Option ConnectionId := none
  state : EntityState := .active
  /-- Zero until the registry takes the record in. -/
  incarnation : Nat := 0
deriving DecidableEq, Repr

namespace Queue

/-- Whether a connection may use the queue. -/
def accessibleBy (q : Queue) (conn : ConnectionId) : Bool :=
  conn == .admin || q.owner.all (· == conn)

theorem accessibleBy_admin (q : Queue) : q.accessibleBy .admin = true := by
  simp [accessibleBy]

theorem accessibleBy_iff (q : Queue) {conn : ConnectionId} (h : conn ≠ .admin) :
    q.accessibleBy conn = true ↔ q.owner = none ∨ q.owner = some conn := by
  cases hq : q.owner <;> simp [accessibleBy, hq, h]

end Queue

end BrokerTopology
