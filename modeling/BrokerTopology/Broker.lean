/-
  BrokerTopology.Broker — a running broker: what it keeps in memory, and
  the log it has open.

  Every operation goes the same way.  A broker that is shut down refuses
  it.  Otherwise it is decided on what is in memory; what the decision
  comes to is recorded; and once it is recorded it holds.  If the log
  refuses, the operation has not happened, except that a name drawn for
  a queue is not drawn again.

  Main statements:
    * `perform_of_closed` — a broker that is shut down refuses all.
-/
import BrokerTopology.Log.Open
import BrokerTopology.Operation

namespace BrokerTopology

/-- What a broker is opened with. -/
structure BrokerSettings where
  matcher : Matcher := Matcher.byKey
  /-- So many recorded entries have the log rewritten. -/
  compactAfter : Nat := 4096
  /-- Whether messages are handed on when the broker is restarted. -/
  keepsMessages : Bool := false

/-- A broker. -/
structure Broker (handle : Type) where
  settings : BrokerSettings
  live : LiveState
  /-- The log; `none` once the broker is shut down. -/
  log : Option (OpenLog handle)
  /-- The number of the next connection. -/
  nextConnection : Nat := 1

namespace Broker

variable {medium handle : Type} [Medium medium handle]

/-! ## §1. Opening and shutting down -/

/-- Open a broker on a medium. -/
def openOn (settings : BrokerSettings) (nonce : UInt64) (mailboxes : Mailboxes) (m : medium) :
    Outcome medium Refusal (Broker handle) :=
  match OpenLog.openOn settings.compactAfter m with
  | (.error e, m) => (.error (.journal e), m)
  | (.ok log, m) =>
    let topology := Topology.restore nonce log.journal.state
    (.ok { settings, live := { topology, mailboxes }, log := some log }, m)

/-- Whether a broker is shut down. -/
def isClosed (b : Broker handle) : Bool := b.log.isNone

/-- Flush the log and give it back.  The broker is shut down even if that fails. -/
def shutdown (b : Broker handle) (m : medium) : Outcome (Broker handle × medium) Refusal Unit :=
  match b.log with
  | none => (.ok (), b, m)
  | some log =>
    -- a failure to flush is reported, but the log is given back all the same
    let (result, log, m) := log.sync m
    (result.mapError .journal, { b with log := none }, log.release m)

/-- Shut a broker down and open another with the same settings.  The answer is the other. -/
def restart (b : Broker handle) (nonce : UInt64) (m : medium) :
    Outcome (Broker handle × medium) Refusal (Broker handle) :=
  match b.shutdown m with
  | (.error e, b, m) => (.error e, b, m)
  | (.ok (), b, m) =>
    -- by default messages do not outlive the broker
    let mailboxes := if b.settings.keepsMessages then b.live.mailboxes else .empty
    let (other, m) := openOn b.settings nonce mailboxes m
    (other, b, m)

/-- Let go of a broker without shutting it down. -/
def release (b : Broker handle) (m : medium) : medium :=
  match b.log with
  | none => m
  | some log => log.release m

/-! ## §2. Operations -/

/-- Rewrite the log to the shortest form of what it adds up to. -/
def compact (b : Broker handle) (m : medium) : Outcome (Broker handle × medium) Refusal Unit :=
  match b.log with
  | none => (.error .closed, b, m)
  | some log =>
    let (result, log, m) := log.compact m
    (result.mapError .journal, { b with log := some log }, m)

/-- Decide an operation, record what it comes to, and keep it. -/
def perform {α : Type} (decision : Decision α) (b : Broker handle) (m : medium) :
    Outcome (Broker handle × medium) Refusal α :=
  match b.log with
  | none => (.error .closed, b, m)
  | some log =>
    match decision b.live with
    | .error e => (.error e, b, m)
    | .ok change =>
      -- nothing of the change holds before this succeeds
      match log.record change.ops m with
      | (.error e, log, m) =>
        (.error (.journal e), { b with live := b.live.withNames change.live, log := some log }, m)
      | (.ok (), log, m) => (.ok change.answer, { b with live := change.live, log := some log }, m)

/-- Perform an operation that comes on a connection. -/
def run (conn : ConnectionId) (op : Operation) (b : Broker handle) (m : medium) :
    Outcome (Broker handle × medium) Refusal Answer :=
  perform (op.decide b.settings.matcher conn) b m

/-- The number for a new connection. -/
def connect (b : Broker handle) : ConnectionId × Broker handle :=
  (⟨b.nextConnection⟩, { b with nextConnection := b.nextConnection + 1 })

/-- The same broker with other messages. -/
def withMailboxes (b : Broker handle) (mailboxes : Mailboxes) : Broker handle :=
  { b with live := { b.live with mailboxes } }

theorem perform_of_closed {α : Type} {b : Broker handle} (h : b.log = none)
    (decision : Decision α) (m : medium) : perform decision b m = (.error .closed, b, m) := by
  simp [perform, h]

end Broker

end BrokerTopology
