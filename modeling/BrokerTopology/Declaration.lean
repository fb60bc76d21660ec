/-
  BrokerTopology.Declaration — declaring exchanges and queues, and
  binding them.

  To declare again what is there changes nothing, provided that the
  parameters agree; a passive declaration asks only whether it is there.
  Names that start with the reserved stem are the broker's own, and an
  empty queue name has the broker make one up.

  What outlives the broker is recorded: durable exchanges, persistent
  queues, and bindings between two such.

  Main statements:
    * `mismatch?_self` — a declaration agrees with itself.
-/
import BrokerTopology.LiveState

namespace BrokerTopology

/-! ## §1. Agreement -/

/-- How a requested exchange differs from the one that is there. -/
def ExchangeDef.mismatch? (present requested : ExchangeDef) : Option Mismatch :=
  if present.kind ≠ requested.kind then some (.kind present.kind requested.kind)
  else if present.durable ≠ requested.durable then some (.durable present.durable)
  else if present.autoDelete ≠ requested.autoDelete then some (.autoDelete present.autoDelete)
  else none

/-- How a requested queue differs from the one that is there. -/
def QueueDef.mismatch? (present requested : QueueDef) : Option Mismatch :=
  if present.durable ≠ requested.durable then some (.durable present.durable)
  else if present.exclusive ≠ requested.exclusive then some (.exclusive present.exclusive)
  else if present.autoDelete ≠ requested.autoDelete then some (.autoDelete present.autoDelete)
  else none

theorem ExchangeDef.mismatch?_self (d : ExchangeDef) : d.mismatch? d = none := by
  simp [mismatch?]

theorem QueueDef.mismatch?_self (d : QueueDef) : d.mismatch? d = none := by
  simp [mismatch?]

/-! ## §2. Declarations -/

/-- What is answered to the declaration of a queue. -/
structure QueueDeclared where
  queue : String
  messages : Nat
  consumers : Nat
deriving DecidableEq, Repr

namespace LiveState

/-- The name of an entity that is declared must not be too long. -/
def checkLength (name : String) : Except Refusal Unit :=
  if Name.isOverlong name then .error (.preconditionFailed (.nameLength name.utf8ByteSize))
  else .ok ()

/-- Declare an exchange. -/
def declareExchange (d : ExchangeDef) (passive : Bool) : Decision Unit := fun s => do
  checkLength d.name
  -- the default exchange is always there, and nobody may declare it
  if d.name = Name.defaultExchange then
    if passive then .ok (s.keep ()) else .error (.accessRefused .defaultExchange)
  else
    match s.topology.registry.exchange? d.name with
    | some x =>
      if passive then .ok (s.keep ())
      else
        match x.definition.mismatch? d with
        | some mismatch => .error (.conflict (.exchange d.name) mismatch)
        | none => .ok (s.keep ())
    | none =>
      if passive then .error (.noExchange d.name)
      -- a built-in exchange is found above, so that declaring it again is allowed
      else if Name.isReserved d.name then
        .error (.accessRefused (.reservedName (.exchange d.name)))
      else
        .ok
          { answer := ()
            ops := if d.durable then [.declareExchange d.name d.kind d.autoDelete] else []
            live := s.withTopology (s.topology.addExchange d) }

/-- What is answered once a queue is there. -/
def declared (s : LiveState) (name : String) : QueueDeclared where
  queue := name
  messages := s.mailboxes.count name
  consumers := s.topology.references.consumersOf name

/-- The owner that a queue gets that a connection declares. -/
def ownerOf (conn : ConnectionId) (d : QueueDef) : Option ConnectionId :=
  if d.exclusive then some conn else none

/-- Declare a queue whose name is settled. -/
def declareNamedQueue (conn : ConnectionId) (d : QueueDef) (passive : Bool) :
    Decision QueueDeclared := fun s =>
  match s.topology.registry.queue? d.name with
  | some q =>
    -- whose queue it is comes before what it is like
    if !q.accessibleBy conn then .error (.resourceLocked d.name)
    else if passive then .ok (s.keep (s.declared d.name))
    else
      match q.definition.mismatch? d with
      | some mismatch => .error (.conflict (.queue d.name) mismatch)
      | none => .ok (s.keep (s.declared d.name))
  | none =>
    if passive then .error (.noQueue d.name)
    else
      let live := s.withTopology (s.topology.addQueue d (ownerOf conn d))
      .ok
        { answer := live.declared d.name
          ops := if d.persistent then [.declareQueue d.name d.autoDelete] else []
          live }

/-- Draw a name for a queue that is declared without one. -/
def drawName (s : LiveState) : String × LiveState :=
  let (name, registry) := s.topology.registry.drawName
  (name, s.withTopology { s.topology with registry })

/-- Declare a queue. -/
def declareQueue (conn : ConnectionId) (d : QueueDef) (passive : Bool) :
    Decision QueueDeclared := fun s => do
  if d.name = "" then
    if passive then .error (.noQueue "")
    else
      -- a made-up name is reserved and short enough by its form
      let (name, s) := s.drawName
      declareNamedQueue conn { d with name } passive s
  else
    checkLength d.name
    if !passive && Name.isReserved d.name then
      .error (.accessRefused (.reservedName (.queue d.name)))
    else declareNamedQueue conn d passive s

/-! ## §3. Binding -/

/-- Every queue is reachable through the default exchange, and may not be bound to it. -/
def checkBindable (exchange : String) : Except Refusal Unit :=
  if exchange = Name.defaultExchange then .error (.accessRefused .defaultExchange) else .ok ()

/-- Bind a queue to an exchange. -/
def bind (conn : ConnectionId) (b : Binding) : Decision Unit := fun s => do
  checkBindable b.exchange
  -- of two missing ends the queue is reported
  let _ ← s.queueFor conn b.queue
  let _ ← s.exchangeOf b.exchange
  if s.topology.bindings.contains b then .ok (s.keep ())
  else
    .ok
      { answer := ()
        ops := if s.topology.isPersistent b then [.bind b] else []
        live := s.withTopology (s.topology.addBinding b) }

end LiveState

end BrokerTopology
