/-
  BrokerTopology.Durable.Op — the changes that outlive a broker.

  Only durable exchanges, queues that are durable and not exclusive, and
  bindings between two such are ever recorded.  What one operation
  changes is recorded as one entry, so that it is replayed as a whole or
  not at all.
-/
import BrokerTopology.Binding
import BrokerTopology.Queue

namespace BrokerTopology

/-- One durable change. -/
inductive DurableOp where
  | declareExchange (name : String) (kind : ExchangeKind) (autoDelete : Bool)
  | deleteExchange (name : String)
  | declareQueue (name : String) (autoDelete : Bool)
  | deleteQueue (name : String)
  | bind (binding : Binding)
  | unbind (binding : Binding)
deriving DecidableEq, Repr

/-- The durable changes of one operation, under a sequence number. -/
structure JournalEntry where
  seq : Nat
  ops : List DurableOp
deriving DecidableEq, Repr

end BrokerTopology
