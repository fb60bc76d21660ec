/-
  BrokerTopology.Topology — what is declared and how it is joined.

  The registry says what exists, the table says which queues are bound
  to which exchanges, and the counts say how many bindings and consumers
  there are.  The count of bindings follows the table: both change in
  one step.

  The part of a topology that outlives the broker is rebuilt from the
  durable state.

  Main statements:
    * `addBinding_of_contains` — a binding is in the table once.
-/
import BrokerTopology.BindingTable
import BrokerTopology.Durable.State
import BrokerTopology.ReferenceCounts
import BrokerTopology.Registry

namespace BrokerTopology

/-- Every entity, binding and reference of a running broker. -/
structure Topology where
  registry : Registry
  bindings : BindingTable := .empty
  references : ReferenceCounts := .empty
deriving DecidableEq

namespace Topology

/-- Add a binding and count it, unless it is there. -/
def addBinding (t : Topology) (b : Binding) : Topology :=
  match t.bindings.insert b with
  | (false, _) => t
  | (true, bindings) => { t with bindings, references := t.references.bindingAdded b.exchange }

/-- Take in an exchange. -/
def addExchange (t : Topology) (d : ExchangeDef) : Topology :=
  { t with registry := t.registry.insertExchange { definition := d } }

/-- Take in a queue. -/
def addQueue (t : Topology) (d : QueueDef) (owner : Option ConnectionId) : Topology :=
  { t with registry := t.registry.insertQueue { definition := d, owner } }

/-- The topology of a fresh broker. -/
def initial (nonce : UInt64) : Topology where
  registry := .initial nonce

/-- The topology that a durable state stands for.  The built-in exchanges are there already,
and a declaration under one of their names is passed over. -/
def restore (nonce : UInt64) (s : DurableState) : Topology :=
  let withExchanges := (s.exchanges.values.filter fun d => !Name.isBuiltin d.name).foldl
    addExchange (initial nonce)
  let withQueues := s.queues.values.foldl (fun t d => t.addQueue d none) withExchanges
  -- bindings last, when both of their ends are there
  s.bindings.toList.foldl addBinding withQueues

/-- A binding outlives the broker exactly when both of its ends do. -/
def isPersistent (t : Topology) (b : Binding) : Bool :=
  (t.registry.exchange? b.exchange).any (fun x => x.definition.durable) &&
    (t.registry.queue? b.queue).any (fun q => q.definition.persistent)

theorem addBinding_of_contains {t : Topology} {b : Binding} (h : t.bindings.contains b = true) :
    t.addBinding b = t := by
  simp [addBinding, BindingTable.insert_of_contains h]

end Topology

end BrokerTopology
