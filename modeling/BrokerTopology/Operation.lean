/-
  BrokerTopology.Operation — the operations of a broker, as data.

  Every operation comes on some connection and has an answer.  Operations
  on exchanges are open to all; those on a queue are closed to all but
  the connection that owns it.

  Main statements:
    * `decide_route_live` — to ask for a route changes nothing.
-/
import BrokerTopology.Declaration
import BrokerTopology.Teardown
import BrokerTopology.Traffic

namespace BrokerTopology

/-- What a broker can be asked to do. -/
inductive Operation where
  | declareExchange (d : ExchangeDef) (passive : Bool)
  | declareQueue (d : QueueDef) (passive : Bool)
  | bind (b : Binding)
  | unbind (b : Binding)
  | deleteQueue (name : String) (ifUnused ifEmpty : Bool)
  | deleteExchange (name : String) (ifUnused : Bool)
  | purge (queue : String)
  | publish (message : Message)
  | fetch (queue : String)
  | route (exchange key : String)
  | attachConsumer (queue : String)
  | detachConsumer (queue : String)
deriving DecidableEq

/-- What it can answer. -/
inductive Answer where
  | done
  | declared (queue : QueueDeclared)
  | count (n : Nat)
  | message (m : Option Message)
  | queues (names : NameSet)
deriving DecidableEq

namespace Operation

/-- What an operation on a connection comes to. -/
def decide (matcher : Matcher) (conn : ConnectionId) : Operation → Decision Answer
  | declareExchange d passive => (LiveState.declareExchange d passive).map fun _ => .done
  | declareQueue d passive => (LiveState.declareQueue conn d passive).map .declared
  | bind b => (LiveState.bind conn b).map fun _ => .done
  | unbind b => (LiveState.unbind conn b).map fun _ => .done
  | deleteQueue name ifUnused ifEmpty =>
    (LiveState.deleteQueue conn name ifUnused ifEmpty).map .count
  | deleteExchange name ifUnused => (LiveState.deleteExchange name ifUnused).map fun _ => .done
  | purge queue => (LiveState.purge conn queue).map .count
  | publish message => (LiveState.publish matcher message).map .count
  | fetch queue => (LiveState.fetch conn queue).map .message
  | route exchange key => (LiveState.route matcher exchange key).map .queues
  | attachConsumer queue => (LiveState.attachConsumer conn queue).map fun r => .count r.1
  | detachConsumer queue => (LiveState.detachConsumer queue none).map .count

theorem decide_route_live {matcher : Matcher} {conn : ConnectionId} {exchange key : String}
    {s : LiveState} {change : Change Answer}
    (h : decide matcher conn (route exchange key) s = .ok change) : change.live = s := by
  cases hx : s.exchangeOf exchange with
  | error e =>
    simp [decide, Decision.map, LiveState.route, hx, Bind.bind, Except.bind, Except.map] at h
  | ok x =>
    simp only [decide, Decision.map, LiveState.route, hx, Bind.bind, Except.bind, Except.map,
      Except.ok.injEq] at h
    rw [← h]
    rfl

end Operation

end BrokerTopology
