/-
  BrokerTopology.Connection — connections, their channels, and the
  consumers on those.

  A connection owns the exclusive queues that are declared on it, and
  they are deleted when it closes.  A channel has the consumers that were
  started on it, and they leave when it closes.  A consumer remembers
  which queue it joined, so that it does not leave a later queue of the
  same name.

  A thing that is gone already need not be taken down: that nothing was
  found is no failure here.

  Main statements:
    * `cancel_of_unknown` — a tag that the channel does not have is not
      found.
-/
import BrokerTopology.Broker

namespace BrokerTopology

/-! ## §1. What a connection knows -/

/-- A consumer: the queue that it joined. -/
structure Consumer where
  queue : String
  incarnation : Nat
deriving DecidableEq, Repr

/-- A channel: its consumers by their tags. -/
structure Channel where
  consumers : NameMap Consumer := ∅
deriving DecidableEq

/-- A connection. -/
structure Connection where
  id : ConnectionId
  nextChannel : Nat := 1
  nextTag : Nat := 1
  /-- The channels that are open, by number. -/
  channels : Std.ExtTreeMap Nat Channel compare := ∅
deriving DecidableEq

namespace Connection

/-- Open a channel.  The answer is its number. -/
def openChannel (c : Connection) : Nat × Connection :=
  (c.nextChannel,
    { c with
      nextChannel := c.nextChannel + 1
      channels := c.channels.insert c.nextChannel {} })

/-- The channel of a number; one that is not open has no consumers. -/
def channel (c : Connection) (number : Nat) : Channel := c.channels[number]?.getD {}

/-- The tag of the next consumer on a channel. -/
def tag (c : Connection) (number : Nat) : String :=
  "ctag-" ++ toString c.id.number ++ "." ++ toString number ++ "-" ++ toString c.nextTag

/-- The tags on a channel, in order. -/
def tags (c : Connection) (number : Nat) : List String := (c.channel number).consumers.keys

/-- Put a consumer on a channel under the next tag. -/
def addConsumer (c : Connection) (number : Nat) (consumer : Consumer) : Connection :=
  { c with
    nextTag := c.nextTag + 1
    channels := c.channels.insert number
      { consumers := (c.channel number).consumers.insert (c.tag number) consumer } }

/-- Take a consumer off a channel. -/
def eraseConsumer (c : Connection) (number : Nat) (tag : String) : Connection :=
  { c with
    channels := c.channels.insert number
      { consumers := (c.channel number).consumers.erase tag } }

/-- Take a channel off. -/
def eraseChannel (c : Connection) (number : Nat) : Connection :=
  { c with channels := c.channels.erase number }

/-! ## §2. Consumers -/

variable {medium handle : Type} [Medium medium handle]

/-- The outcome, with a refusal for want of the thing taken for success. -/
def excuseNotFound {α : Type} (fallback : α) : Except Refusal α → Except Refusal α
  | .ok answer => .ok answer
  | .error e => if e.isNotFound then .ok fallback else .error e

/-- Start a consumer on a channel.  The answer is its tag. -/
def consume (c : Connection) (number : Nat) (queue : String) (b : Broker handle) (m : medium) :
    Outcome (Connection × Broker handle × medium) Refusal String :=
  match b.perform (LiveState.attachConsumer c.id queue) m with
  | (.error e, b, m) => (.error e, c, b, m)
  | (.ok (_, incarnation), b, m) =>
    (.ok (c.tag number), c.addConsumer number { queue, incarnation }, b, m)

/-- Have a consumer leave the queue that it joined, if that is still there. -/
def leave (consumer : Consumer) (b : Broker handle) (m : medium) :
    Outcome (Broker handle × medium) Refusal Unit :=
  match b.perform (LiveState.detachConsumer consumer.queue (some consumer.incarnation)) m with
  | (result, b, m) => (excuseNotFound () (result.map fun _ => ()), b, m)

/-- Cancel a consumer on a channel.  Its tag is gone even if leaving the queue fails. -/
def cancel (c : Connection) (number : Nat) (tag : String) (b : Broker handle) (m : medium) :
    Outcome (Connection × Broker handle × medium) Refusal Unit :=
  match (c.channel number).consumers[tag]? with
  | none => (.error (.notFound (.consumer tag)), c, b, m)
  | some consumer =>
    -- the tag goes whatever comes of leaving
    let (result, b, m) := leave consumer b m
    (result, c.eraseConsumer number tag, b, m)

/-! ## §3. Closing -/

/-- Have consumers leave, all of them; the first failure is reported. -/
def leaveAll (b : Broker handle) (m : medium) :
    List Consumer → Outcome (Broker handle × medium) Refusal Unit
  | [] => (.ok (), b, m)
  | consumer :: consumers =>
    -- a failure keeps nobody else from leaving
    let (result, b, m) := leave consumer b m
    let (others, b, m) := leaveAll b m consumers
    (result.bind fun _ => others, b, m)

/-- Close a channel. -/
def closeChannel (c : Connection) (number : Nat) (b : Broker handle) (m : medium) :
    Outcome (Connection × Broker handle × medium) Refusal Unit :=
  if b.isClosed then (.ok (), c.eraseChannel number, b, m)
  else
    let (result, b, m) := leaveAll b m (c.channel number).consumers.values
    (result, c.eraseChannel number, b, m)

/-- Close channels, whatever comes of it. -/
def closeChannels (c : Connection) (b : Broker handle) (m : medium) :
    List Nat → Connection × Broker handle × medium
  | [] => (c, b, m)
  | number :: numbers =>
    -- what a channel fails with is not passed on
    let (_, c, b, m) := c.closeChannel number b m
    closeChannels c b m numbers

/-- Delete the queues of a connection, up to the first failure. -/
def deleteQueues (conn : ConnectionId) (b : Broker handle) (m : medium) :
    List String → Outcome (Broker handle × medium) Refusal Unit
  | [] => (.ok (), b, m)
  | queue :: queues =>
    let (result, b, m) := b.perform (LiveState.deleteQueue conn queue false false) m
    -- that a queue is gone already is no reason to stop
    match excuseNotFound 0 result with
    | .error e => (.error e, b, m)
    | .ok _ => deleteQueues conn b m queues

/-- Release what a connection owns. -/
def release (conn : ConnectionId) (b : Broker handle) (m : medium) :
    Outcome (Broker handle × medium) Refusal Unit :=
  if b.isClosed then (.ok (), b, m)
  else deleteQueues conn b m (b.live.topology.registry.ownedBy conn)

/-- Close a connection: its channels in the order of their numbers, then what it owns. -/
def close (c : Connection) (b : Broker handle) (m : medium) :
    Outcome (Broker handle × medium) Refusal Unit :=
  let (c, b, m) := closeChannels c b m c.channels.keys
  release c.id b m

theorem cancel_of_unknown {c : Connection} {number : Nat} {tag : String}
    (h : (c.channel number).consumers[tag]? = none) (b : Broker handle) (m : medium) :
    c.cancel number tag b m = (.error (.notFound (.consumer tag)), c, b, m) := by
  simp [cancel, h]

end Connection

end BrokerTopology
