/-
  BrokerTopology.Server — a broker and the connections made to it.

  Whatever is asked of a broker is a request, and a request is data: it
  comes on no connection, on a connection, or on a channel of one.  A
  request on a connection or a channel that is not open changes nothing.

  Main statements:
    * `serve_of_no_connection` — on a connection that is not open
      nothing happens.
    * `serve_of_no_channel` — nor on a channel that is not.
-/
import BrokerTopology.Connection

namespace BrokerTopology

/-! ## §1. Requests -/

/-- What can be asked of a broker. -/
inductive Server.Request where
  /-- An operation that comes on no connection. -/
  | operation (op : Operation)
  /-- To rewrite the log. -/
  | compact
  | shutdown
  | connect
  | openChannel (conn : ConnectionId)
  | closeConnection (conn : ConnectionId)
  /-- An operation that comes on a channel. -/
  | onChannel (conn : ConnectionId) (channel : Nat) (op : Operation)
  /-- To start a consumer on a queue. -/
  | consume (conn : ConnectionId) (channel : Nat) (queue : String)
  /-- To cancel the consumer of a tag. -/
  | cancel (conn : ConnectionId) (channel : Nat) (tag : String)
  | closeChannel (conn : ConnectionId) (channel : Nat)
deriving DecidableEq

/-- The connection that a request comes on. -/
def Server.Request.connection? : Server.Request → Option ConnectionId
  | operation _ | compact | shutdown | connect => none
  | openChannel conn | closeConnection conn => some conn
  | onChannel conn .. | consume conn .. | cancel conn .. | closeChannel conn _ => some conn

/-- What a request is answered with. -/
inductive Server.Reply where
  | answer (a : Answer)
  | connected (conn : ConnectionId)
  | opened (channel : Nat)
  | started (tag : String)
  /-- The connection or the channel is not open. -/
  | absent
deriving DecidableEq

/-- What is answered to a request that was carried out. -/
def Server.Reply.done : Server.Reply := .answer .done

/-! ## §2. Servers -/

/-- A broker and the connections to it that are open, by number. -/
structure Server (handle : Type) where
  broker : Broker handle
  connections : Std.ExtTreeMap Nat Connection compare := ∅

namespace Server

variable {medium handle : Type} [Medium medium handle]

/-- An open connection. -/
def connection? (s : Server handle) (conn : ConnectionId) : Option Connection :=
  s.connections[conn.number]?

/-- Whether a channel is open. -/
def hasChannel (s : Server handle) (conn : ConnectionId) (channel : Nat) : Bool :=
  (s.connection? conn).any fun c => c.channels.contains channel

/-- The tags of the consumers on a channel, in order. -/
def tags (s : Server handle) (conn : ConnectionId) (channel : Nat) : List String :=
  match s.connection? conn with
  | none => []
  | some c => c.tags channel

/-- Keep what became of a connection and of the broker. -/
def keep (s : Server handle) (c : Connection) (b : Broker handle) : Server handle where
  broker := b
  connections := s.connections.insert c.id.number c

/-- Make a connection. -/
def connect (s : Server handle) : ConnectionId × Server handle :=
  let (id, b) := s.broker.connect
  (id, s.keep { id } b)

/-- Do something on a connection, if it is open. -/
def onConnection (s : Server handle) (conn : ConnectionId) (m : medium)
    (f : Connection → Outcome (Server handle × medium) Refusal Reply) :
    Outcome (Server handle × medium) Refusal Reply :=
  match s.connection? conn with
  | none => (.ok .absent, s, m)
  | some c => f c

/-- Do something on a channel, if it is open. -/
def onChannel (s : Server handle) (conn : ConnectionId) (channel : Nat) (m : medium)
    (f : Connection → Outcome (Connection × Broker handle × medium) Refusal Reply) :
    Outcome (Server handle × medium) Refusal Reply :=
  s.onConnection conn m fun c =>
    if c.channels.contains channel then
      let (result, c, b, m) := f c
      (result, s.keep c b, m)
    else (.ok .absent, s, m)

/-- Carry a request out. -/
def serve (s : Server handle) (m : medium) :
    Request → Outcome (Server handle × medium) Refusal Reply
  | .operation op =>
    let (result, broker, m) := s.broker.run .admin op m
    (result.map .answer, { s with broker }, m)
  | .compact =>
    let (result, broker, m) := s.broker.compact m
    (result.map fun _ => .done, { s with broker }, m)
  | .shutdown =>
    let (result, broker, m) := s.broker.shutdown m
    (result.map fun _ => .done, { s with broker }, m)
  | .connect =>
    let (conn, s) := s.connect
    (.ok (.connected conn), s, m)
  | .openChannel conn =>
    s.onConnection conn m fun c =>
      let (channel, c) := c.openChannel
      (.ok (.opened channel), s.keep c s.broker, m)
  | .closeConnection conn =>
    s.onConnection conn m fun c =>
      let (result, broker, m) := c.close s.broker m
      -- the connection is gone even if it could not be closed cleanly
      (result.map fun _ => .done, { broker, connections := s.connections.erase conn.number }, m)
  | .onChannel conn channel op =>
    s.onChannel conn channel m fun c =>
      let (result, b, m) := s.broker.run conn op m
      (result.map .answer, c, b, m)
  | .consume conn channel queue =>
    s.onChannel conn channel m fun c =>
      let (result, after) := c.consume channel queue s.broker m
      (result.map .started, after)
  | .cancel conn channel tag =>
    s.onChannel conn channel m fun c =>
      let (result, after) := c.cancel channel tag s.broker m
      (result.map fun _ => .done, after)
  | .closeChannel conn channel =>
    s.onChannel conn channel m fun c =>
      let (result, after) := c.closeChannel channel s.broker m
      (result.map fun _ => .done, after)

theorem serve_of_no_connection {s : Server handle} {q : Request} {conn : ConnectionId}
    (hq : q.connection? = some conn) (h : s.connection? conn = none) (m : medium) :
    s.serve m q = (.ok .absent, s, m) := by
  cases q <;> simp only [Request.connection?, Option.some.injEq, reduceCtorEq] at hq <;>
    subst hq <;> simp [serve, onChannel, onConnection, h]

theorem serve_of_no_channel {s : Server handle} {conn : ConnectionId} {channel : Nat}
    (h : s.hasChannel conn channel = false) (op : Operation) (m : medium) :
    s.serve m (.onChannel conn channel op) = (.ok .absent, s, m) := by
  unfold hasChannel at h
  cases hc : s.connection? conn with
  | none => simp [serve, onChannel, onConnection, hc]
  | some c =>
    rw [hc] at h
    have hn : c.channels.contains channel = false := by simpa using h
    simp [serve, onChannel, onConnection, hc, hn]

end Server

end BrokerTopology
