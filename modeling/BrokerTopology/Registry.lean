/-
  BrokerTopology.Registry — the exchanges and queues that exist.

  Existence is decided here and nowhere else.  A record is filed under
  the name in its definition.  A queue gets a new incarnation when it is
  taken in, and a record that is removed is handed back marked deleted.

  Main statements:
    * `queue?_insertQueue` / `exchange?_insertExchange` — what taking a
      record in does to look-ups.
    * `queue?_eraseQueue` / `exchange?_eraseExchange` — what removing
      one does.
-/
import BrokerTopology.Queue
import BrokerTopology.GeneratedName

namespace BrokerTopology

/-- Every live exchange and queue. -/
structure Registry where
  exchanges : NameMap Exchange
  queues : NameMap Queue := ∅
  names : NameGenerator
  /-- The incarnation given out last. -/
  lastIncarnation : Nat := 0
deriving DecidableEq

namespace Registry

/-- The registry of a fresh broker: the built-in exchanges and nothing else. -/
def initial (nonce : UInt64) : Registry where
  exchanges := .ofList (Exchange.builtins.map fun x => (x.definition.name, x))
  names := { nonce }

/-! ## §1. Look-ups -/

/-- The exchange of a name. -/
def exchange? (r : Registry) (name : String) : Option Exchange := r.exchanges[name]?

/-- The queue of a name. -/
def queue? (r : Registry) (name : String) : Option Queue := r.queues[name]?

/-- Whether an exchange of that name exists. -/
def hasExchange (r : Registry) (name : String) : Bool := r.exchanges.contains name

/-- Whether a queue of that name exists. -/
def hasQueue (r : Registry) (name : String) : Bool := r.queues.contains name

/-- Every exchange, in the order of the names. -/
def exchangeList (r : Registry) : List Exchange := r.exchanges.values

/-- Every queue, in the order of the names. -/
def queueList (r : Registry) : List Queue := r.queues.values

/-- The names of the queues that a connection owns, in order. -/
def ownedBy (r : Registry) (conn : ConnectionId) : List String :=
  (r.queueList.filter fun q => q.owner == some conn).map fun q => q.definition.name

/-! ## §2. Changes -/

/-- Take in an exchange. -/
def insertExchange (r : Registry) (x : Exchange) : Registry :=
  { r with exchanges := r.exchanges.insert x.definition.name x }

/-- Take in a queue under a new incarnation. -/
def insertQueue (r : Registry) (q : Queue) : Registry :=
  let incarnation := r.lastIncarnation + 1
  { r with
    queues := r.queues.insert q.definition.name { q with incarnation }
    lastIncarnation := incarnation }

/-- Remove an exchange. -/
def eraseExchange (r : Registry) (name : String) : Registry :=
  { r with exchanges := r.exchanges.erase name }

/-- Remove a queue. -/
def eraseQueue (r : Registry) (name : String) : Registry :=
  { r with queues := r.queues.erase name }

/-- Remove an exchange and hand its record back. -/
def takeExchange (r : Registry) (name : String) : Option Exchange × Registry :=
  ((r.exchange? name).map fun x => { x with state := .deleted }, r.eraseExchange name)

/-- Remove a queue and hand its record back. -/
def takeQueue (r : Registry) (name : String) : Option Queue × Registry :=
  ((r.queue? name).map fun q => { q with state := .deleted }, r.eraseQueue name)

/-- Draw a queue name that is not taken.  Among one more candidate than there are queues,
one is free. -/
def drawName (r : Registry) : String × Registry :=
  let (name, names) := r.names.draw r.hasQueue r.queues.size
  (name, { r with names })

/-! ## §3. What changes do to look-ups -/

theorem queue?_insertQueue (r : Registry) (q : Queue) (name : String) :
    (r.insertQueue q).queue? name =
      if q.definition.name = name then some { q with incarnation := r.lastIncarnation + 1 }
      else r.queue? name := by
  simp [insertQueue, queue?, Std.ExtTreeMap.getElem?_insert]

theorem exchange?_insertExchange (r : Registry) (x : Exchange) (name : String) :
    (r.insertExchange x).exchange? name =
      if x.definition.name = name then some x else r.exchange? name := by
  simp [insertExchange, exchange?, Std.ExtTreeMap.getElem?_insert]

theorem queue?_eraseQueue (r : Registry) (name other : String) :
    (r.eraseQueue name).queue? other = if name = other then none else r.queue? other := by
  simp [eraseQueue, queue?, Std.ExtTreeMap.getElem?_erase]

theorem exchange?_eraseExchange (r : Registry) (name other : String) :
    (r.eraseExchange name).exchange? other =
      if name = other then none else r.exchange? other := by
  simp [eraseExchange, exchange?, Std.ExtTreeMap.getElem?_erase]

end Registry

end BrokerTopology
