/-
  BrokerTopology.Routing — which queues a message reaches.

  A direct exchange compares routing keys, a fanout exchange ignores
  them, and a topic exchange reads the key of a binding as a pattern.
  A queue that several bindings reach is reached once.

  Main statements:
    * `mem_byKey` — a queue is reached exactly through a binding that
      accepts the key.
-/
import BrokerTopology.Binding
import BrokerTopology.Exchange
import BrokerTopology.TopicPattern

namespace BrokerTopology

/-- Chooses queues among the bindings of one exchange, by its kind and a routing key. -/
abbrev Matcher := ExchangeKind → List Binding → String → NameSet

namespace Matcher

/-- Whether an exchange of a kind sends a routing key through a binding. -/
def accepts (kind : ExchangeKind) (b : Binding) (key : String) : Bool :=
  match kind with
  | .direct => b.routingKey == key
  | .fanout => true
  | .topic => TopicPattern.matchesKey b.routingKey key

/-- The matcher of a broker that is given no other. -/
def byKey : Matcher := fun kind bindings key =>
  .ofList ((bindings.filter fun b => accepts kind b key).map Binding.queue)

/-- The matcher that always chooses the same queues. -/
def always (queues : NameSet) : Matcher := fun _ _ _ => queues

theorem mem_byKey {kind : ExchangeKind} {bindings : List Binding} {key queue : String} :
    queue ∈ byKey kind bindings key ↔
      ∃ b ∈ bindings, accepts kind b key = true ∧ b.queue = queue := by
  simp [byKey, Std.ExtTreeSet.mem_ofList, and_assoc]

end Matcher

end BrokerTopology
