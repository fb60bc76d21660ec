/-
  BrokerTopology.Record — exchanges, queues and bindings as JSON records.

  A record is written as an object with its fields in a fixed order.  It
  is read from an object with its fields in any order, beside others
  that are passed over, or from an array of just its fields.

  Main statements:
    * `readKind_writeKind`, `readBinding_writeBinding`,
      `readExchangeDef_writeExchangeDef`, `readQueueDef_writeQueueDef` —
      what is written reads back as itself.
-/
import BrokerTopology.Binding
import BrokerTopology.Queue
import BrokerTopology.Json.Value
import BrokerTopology.Word

namespace BrokerTopology

namespace Record

/-! ## §1. Names of variants -/

/-- The kind that a document names. -/
def readKind (nothing : Json → Bool) (v : Json) : Option ExchangeKind :=
  (v.variant? nothing).bind ExchangeKind.ofName?

/-- A kind as a document. -/
def writeKind (kind : ExchangeKind) : Json := .str kind.name

/-- The state that a document names. -/
def readState (v : Json) : Option EntityState :=
  (v.variant? Json.isNull).bind fun name =>
    [EntityState.active, .deleted].find? fun state => state.name == name

/-- A state as a document. -/
def writeState (state : EntityState) : Json := .str state.name

/-! ## §2. Bindings -/

/-- The fields of a binding. -/
def bindingFields : List String := ["queue", "exchange", "routing_key"]

/-- A binding from the values of its fields. -/
def bindingOfFields : List Json → Option Binding
  | [queue, exchange, routingKey] => do
    let queue ← queue.str?
    let exchange ← exchange.str?
    let routingKey ← routingKey.str?
    pure { queue, exchange, routingKey }
  | _ => none

/-- The binding that a document records. -/
def readBinding (v : Json) : Option Binding :=
  (v.fields? bindingFields).bind bindingOfFields

/-- The members of a binding's record. -/
def bindingMembers (b : Binding) : List (String × Json) :=
  [("queue", .str b.queue), ("exchange", .str b.exchange), ("routing_key", .str b.routingKey)]

/-- A binding as a document. -/
def writeBinding (b : Binding) : Json := .record (bindingMembers b)

/-! ## §3. Declarations -/

/-- The exchange declaration that a document records. -/
def readExchangeDef (v : Json) : Option ExchangeDef := do
  match ← v.fields? ["name", "kind", "durable", "auto_delete"] with
  | [name, kind, durable, autoDelete] =>
    let name ← name.str?
    let kind ← readKind Json.isNull kind
    let durable ← durable.bool?
    let autoDelete ← autoDelete.bool?
    pure { name, kind, durable, autoDelete }
  | _ => none

/-- An exchange declaration as a document. -/
def writeExchangeDef (d : ExchangeDef) : Json :=
  .record [("name", .str d.name), ("kind", writeKind d.kind), ("durable", .bool d.durable),
    ("auto_delete", .bool d.autoDelete)]

/-- The queue declaration that a document records. -/
def readQueueDef (v : Json) : Option QueueDef := do
  match ← v.fields? ["name", "durable", "exclusive", "auto_delete"] with
  | [name, durable, exclusive, autoDelete] =>
    let name ← name.str?
    let durable ← durable.bool?
    let exclusive ← exclusive.bool?
    let autoDelete ← autoDelete.bool?
    pure { name, durable, exclusive, autoDelete }
  | _ => none

/-- A queue declaration as a document. -/
def writeQueueDef (d : QueueDef) : Json :=
  .record [("name", .str d.name), ("durable", .bool d.durable), ("exclusive", .bool d.exclusive),
    ("auto_delete", .bool d.autoDelete)]

/-- A recorded exchange as a document. -/
def writeExchange (x : Exchange) : Json :=
  .record [("def", writeExchangeDef x.definition), ("builtin", .bool x.builtin),
    ("state", writeState x.state)]

/-- A connection that owns a queue, or `null`. -/
def writeOwner (owner : Option ConnectionId) : Json :=
  match owner with
  | none => .null
  | some conn => .nat conn.number

/-- A recorded queue as a document.  Its incarnation is the broker's own business. -/
def writeQueue (q : Queue) : Json :=
  .record [("def", writeQueueDef q.definition), ("owner", writeOwner q.owner),
    ("state", writeState q.state)]

/-- The connection that a document records: its number alone. -/
def readConnection (v : Json) : Option ConnectionId :=
  (v.natBelow? Word.bound64).map ConnectionId.mk

/-- A connection as a document. -/
def writeConnection (conn : ConnectionId) : Json := .nat conn.number

/-! ## §4. Writing and reading -/

theorem readKind_writeKind (nothing : Json → Bool) (kind : ExchangeKind) :
    readKind nothing (writeKind kind) = some kind := by
  simp [readKind, writeKind, Json.str, Json.variant?, ExchangeKind.ofName?_name]

theorem readBinding_writeBinding (b : Binding) : readBinding (writeBinding b) = some b := by
  cases b
  rfl

theorem readExchangeDef_writeExchangeDef (d : ExchangeDef) :
    readExchangeDef (writeExchangeDef d) = some d := by
  obtain ⟨name, kind, durable, autoDelete⟩ := d
  cases kind <;> rfl

theorem readQueueDef_writeQueueDef (d : QueueDef) :
    readQueueDef (writeQueueDef d) = some d := by
  cases d
  rfl

end Record

end BrokerTopology
