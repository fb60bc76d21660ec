/-
  BrokerTopology.Durable.State — what durable changes add up to.

  Changes are folded into a state one by one.  A change that names an
  entity the state does not hold is passed over.  Deleting an exchange
  or a queue takes its bindings along.

  A state can be written down as changes again: the exchanges, then the
  queues, then the bindings.

  Main statements:
    * `applyAll_append` — folding is done change by change.
-/
import BrokerTopology.Durable.Op

namespace BrokerTopology

/-- The exchanges, queues and bindings that outlive the broker. -/
structure DurableState where
  exchanges : NameMap ExchangeDef := ∅
  queues : NameMap QueueDef := ∅
  bindings : BindingSet := ∅
deriving DecidableEq

namespace DurableState

/-- Nothing durable. -/
def empty : DurableState := {}

/-- Whether there is nothing durable. -/
def isEmpty (s : DurableState) : Bool :=
  s.exchanges.isEmpty && s.queues.isEmpty && s.bindings.isEmpty

/-- A durable exchange as it is declared. -/
def exchangeDef (name : String) (kind : ExchangeKind) (autoDelete : Bool) : ExchangeDef :=
  { name, kind, durable := true, autoDelete }

/-- A durable queue as it is declared. -/
def queueDef (name : String) (autoDelete : Bool) : QueueDef :=
  { name, durable := true, exclusive := false, autoDelete }

/-- Whether bindings to an exchange can be kept: it is in the state, or built in. -/
def knowsExchange (s : DurableState) (name : String) : Bool :=
  s.exchanges.contains name || Name.isBuiltin name

/-- Fold in one change.  The flag tells whether it found what it names. -/
def apply (s : DurableState) : DurableOp → Bool × DurableState
  | .declareExchange name kind autoDelete =>
    (true, { s with exchanges := s.exchanges.insert name (exchangeDef name kind autoDelete) })
  | .deleteExchange name =>
    (s.exchanges.contains name,
      { s with
        exchanges := s.exchanges.erase name
        bindings := s.bindings.filter fun b => b.exchange != name })
  | .declareQueue name autoDelete =>
    (true, { s with queues := s.queues.insert name (queueDef name autoDelete) })
  | .deleteQueue name =>
    (s.queues.contains name,
      { s with
        queues := s.queues.erase name
        bindings := s.bindings.filter fun b => b.queue != name })
  | .bind b =>
    -- built-in exchanges are never declared, but can be bound to
    if s.knowsExchange b.exchange && s.queues.contains b.queue then
      (true, { s with bindings := s.bindings.insert b })
    else (false, s)
  | .unbind b => (s.bindings.contains b, { s with bindings := s.bindings.erase b })

/-- Fold in changes, one after the other. -/
def applyAll (s : DurableState) (ops : List DurableOp) : DurableState :=
  ops.foldl (fun s op => (s.apply op).2) s

/-- For each of the changes, folded in one after the other, whether it found what it names. -/
def applied (s : DurableState) : List DurableOp → List Bool
  | [] => []
  | op :: ops => (s.apply op).1 :: (s.apply op).2.applied ops

/-- The state as changes: declarations first, then the bindings between what they declare. -/
def toOps (s : DurableState) : List DurableOp :=
  (s.exchanges.values.map fun d => .declareExchange d.name d.kind d.autoDelete) ++
    (s.queues.values.map fun d => .declareQueue d.name d.autoDelete) ++
    s.bindings.toList.map .bind

/-- What the entries of a log add up to. -/
def ofEntries (entries : List JournalEntry) : DurableState :=
  empty.applyAll (entries.flatMap JournalEntry.ops)

theorem applyAll_append (s : DurableState) (before after : List DurableOp) :
    s.applyAll (before ++ after) = (s.applyAll before).applyAll after := by
  simp [applyAll]

end DurableState

end BrokerTopology
