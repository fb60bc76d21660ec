/-
  BrokerTopology.Host — the brokers that are opened on one medium, one
  after the other.

  At most one of them is the current one.  Opening another takes the
  place of the current one only if it succeeds, and the connections stay
  with the broker that they were made to.  The brokers may share their
  messages; if they do, whatever one of them does to the messages holds
  for all.

  Main statements:
    * `open_failed_current` — a broker that cannot be opened leaves the
      current one in its place.
    * `ask_of_no_server` — what is asked of no broker changes nothing.
-/
import BrokerTopology.Server

namespace BrokerTopology

/-- The brokers on a medium. -/
structure Host (medium handle : Type) where
  medium : medium
  settings : BrokerSettings
  /-- The nonce of the next broker. -/
  nonce : UInt64
  /-- Every broker that was opened, by number. -/
  servers : Std.ExtTreeMap Nat (Server handle) compare := ∅
  nextServer : Nat := 0
  /-- The number of the current broker. -/
  current : Option Nat := none
  /-- The messages that the brokers share, if they do. -/
  shared : Option Mailboxes := none

namespace Host

variable {medium handle : Type} [Medium medium handle]

/-! ## §1. Looking up and keeping -/

/-- The broker of a number, with the connections made to it. -/
def server? (h : Host medium handle) (number : Nat) : Option (Server handle) :=
  h.servers[number]?.map fun s =>
    match h.shared with
    | none => s
    | some mailboxes => { s with broker := s.broker.withMailboxes mailboxes }

/-- The current broker. -/
def current? (h : Host medium handle) : Option (Server handle) := h.current.bind h.server?

/-- Keep what became of a broker. -/
def keep (h : Host medium handle) (number : Nat) (s : Server handle) (m : medium) :
    Host medium handle :=
  { h with
    medium := m
    servers := h.servers.insert number s
    shared := h.shared.map fun _ => s.broker.live.mailboxes }

/-- Make a broker the current one. -/
def install (h : Host medium handle) (broker : Broker handle) : Host medium handle :=
  { h with
    servers := h.servers.insert h.nextServer { broker }
    nextServer := h.nextServer + 1
    current := some h.nextServer }

/-- Use up a nonce. -/
def drawNonce (h : Host medium handle) : Host medium handle := { h with nonce := h.nonce + 1 }

/-! ## §2. Opening and restarting -/

/-- Open a broker and make it the current one. -/
def «open» (h : Host medium handle) : Outcome (Host medium handle) Refusal Unit :=
  let (result, m) := Broker.openOn h.settings h.nonce (h.shared.getD .empty) h.medium
  let h := { h.drawNonce with medium := m }
  match result with
  | .error e => (.error e, h)
  | .ok b => (.ok (), h.install b)

/-- Open a broker beside the current one and let go of it. -/
def openBeside (h : Host medium handle) : Outcome (Host medium handle) Refusal Unit :=
  let (result, m) := Broker.openOn h.settings h.nonce (h.shared.getD .empty) h.medium
  let h := { h.drawNonce with medium := m }
  match result with
  | .error e => (.error e, h)
  | .ok b => (.ok (), { h with medium := b.release m })

/-- Restart the current broker, if there is one.  If the next one cannot be opened, the one
that was shut down stays the current one. -/
def restart (h : Host medium handle) : Option (Outcome (Host medium handle) Refusal Unit) :=
  match h.current with
  | none => none
  | some number =>
    (h.server? number).map fun s =>
      let (result, broker, m) := s.broker.restart h.nonce h.medium
      let h := (h.keep number { s with broker } m).drawNonce
      match result with
      | .error e => (.error e, h)
      -- the old broker is kept: connections to it may still be used
      | .ok other => (.ok (), h.install other)

/-! ## §3. Requests -/

/-- Ask something of the broker of a number. -/
def ask (h : Host medium handle) (number : Nat) (q : Server.Request) :
    Outcome (Host medium handle) Refusal Server.Reply :=
  match h.server? number with
  | none => (.ok .absent, h)
  | some s =>
    let (result, s, m) := s.serve h.medium q
    (result, h.keep number s m)

theorem open_failed_current {h after : Host medium handle} {e : Refusal}
    (hopen : h.open = (.error e, after)) : after.current = h.current := by
  unfold Host.open at hopen
  rcases hb : Broker.openOn h.settings h.nonce (h.shared.getD .empty) h.medium with ⟨result, m⟩
  rw [hb] at hopen
  cases result with
  | error refusal =>
    rw [← (Prod.mk.inj hopen).2]
    rfl
  | ok b => cases (Prod.mk.inj hopen).1

theorem ask_of_no_server {h : Host medium handle} {number : Nat} (hs : h.server? number = none)
    (q : Server.Request) : h.ask number q = (.ok .absent, h) := by
  simp [ask, hs]

end Host

end BrokerTopology
