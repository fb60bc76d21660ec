/-
  BrokerTopology.Proofs.BrokerCalls — whatever is asked of a server comes
  to calls on its broker, one after the other.

  Closing a connection has consumers leave and queues deleted, and what
  becomes of one of them decides whether the next is tried.  What holds
  of the broker and its log afterwards does not depend on that: there
  are four calls, to perform an operation, to rewrite the log, to shut
  down and to make a connection, and every request is a run of them.
  Which operations are performed is what a move says.

  Main statements:
    * `performed`, `ok_of_perform` — what may become of an operation, and
      what becomes of one that succeeds.
    * `perform_live` — what is shown of every outcome at once.
    * `Calls.preserves` — what every call preserves, a run preserves.
    * `Call.closed` — a broker that is shut down touches its log no more.
    * `Server.serve_moves` — every request is a run of what can be done in
      one go.
-/
import BrokerTopology.Server
import BrokerTopology.Proofs.TopologySteps
import Mathlib.Logic.Relation

namespace BrokerTopology

/-- To rewrite a log is to keep what it adds up to. -/
theorem Journal.compact_state {σ : Type} [LogStore σ] (j : Journal) (store : σ) :
    (j.compact store).2.1.state = j.state := by
  unfold compact
  split
  next => rfl
  next => rfl

variable {medium handle : Type} [Medium medium handle]

namespace Broker

/-! ## §1. Calls -/

/-- What may become of an operation. -/
inductive Performed {α : Type} (d : Decision α) (b : Broker handle) (m : medium) :
    Outcome (Broker handle × medium) Refusal α → Prop
  | closed (hlog : b.log = none) : Performed d b m (.error .closed, b, m)
  | refused {log : OpenLog handle} {e : Refusal} (hlog : b.log = some log)
      (hd : d b.live = .error e) : Performed d b m (.error e, b, m)
  /-- The log refuses, and only the names drawn stay used up. -/
  | unrecorded {log log' : OpenLog handle} {change : Change α} {e : JournalError} {m' : medium}
      (hlog : b.log = some log) (hd : d b.live = .ok change)
      (hrecord : log.record change.ops m = (.error e, log', m')) :
      Performed d b m
        (.error (.journal e), { b with live := b.live.withNames change.live, log := some log' }, m')
  | recorded {log log' : OpenLog handle} {change : Change α} {m' : medium}
      (hlog : b.log = some log) (hd : d b.live = .ok change)
      (hrecord : log.record change.ops m = (.ok (), log', m')) :
      Performed d b m (.ok change.answer, { b with live := change.live, log := some log' }, m')

theorem performed {α : Type} (d : Decision α) (b : Broker handle) (m : medium) :
    Performed d b m (b.perform d m) := by
  unfold perform
  split
  next hlog => exact .closed hlog
  next log hlog =>
    split
    next e hd => exact .refused hlog hd
    next change hd =>
      split
      next hrecord => exact .unrecorded hlog hd hrecord
      next hrecord => exact .recorded hlog hd hrecord

/-- An operation that succeeds was decided, and the broker's memory is what it was decided to be. -/
theorem ok_of_perform {α : Type} {d : Decision α} {b : Broker handle} {m : medium} {a : α}
    (hok : (b.perform d m).1 = .ok a) : ∃ change, d b.live = .ok change ∧
      change.answer = a ∧ (b.perform d m).2.1.live = change.live := by
  have hperformed := performed d b m
  generalize b.perform d m = outcome at hperformed hok ⊢
  cases hperformed with
  | closed => cases hok
  | refused => cases hok
  | unrecorded => cases hok
  | recorded hlog hchange hrecord =>
    injection hok with hok
    exact ⟨_, hchange, hok, rfl⟩

/-- What a broker keeps in memory after an operation: what it was decided to be, or what was there
before, whatever names were drawn for a change that the log refused. -/
theorem perform_live {α : Type} {d : Decision α} {b : Broker handle} {P : LiveState → Prop}
    (hbefore : P b.live)
    (hnames : ∀ change, d b.live = .ok change → P (b.live.withNames change.live))
    (hd : ∀ change, d b.live = .ok change → P change.live) (m : medium) :
    P (b.perform d m).2.1.live := by
  have hperformed := performed d b m
  generalize b.perform d m = outcome at hperformed ⊢
  cases hperformed with
  | closed => exact hbefore
  | refused => exact hbefore
  | unrecorded _ hchange _ => exact hnames _ hchange
  | recorded _ hchange _ => exact hd _ hchange

/-- The rest of the broker stays, and it is as open as it was. -/
theorem perform_rest {α : Type} (d : Decision α) (b : Broker handle) (m : medium) :
    (b.perform d m).2.1.settings = b.settings ∧
      (b.perform d m).2.1.nextConnection = b.nextConnection ∧
      (b.perform d m).2.1.isClosed = b.isClosed := by
  have hperformed := performed d b m
  generalize b.perform d m = outcome at hperformed ⊢
  cases hperformed with
  | closed => exact ⟨rfl, rfl, rfl⟩
  | refused => exact ⟨rfl, rfl, rfl⟩
  | unrecorded hlog => exact ⟨rfl, rfl, by rw [isClosed, isClosed, hlog]; rfl⟩
  | recorded hlog => exact ⟨rfl, rfl, by rw [isClosed, isClosed, hlog]; rfl⟩

/-- To rewrite the log is to change nothing else. -/
theorem compact_eq (b : Broker handle) (m : medium) :
    ∃ log, (b.compact m).2.1 = { b with log } ∧ ∀ after, log = some after →
      ∃ before, b.log = some before ∧ after.journal.state = before.journal.state := by
  unfold compact
  split
  next hlog => exact ⟨none, by rw [← hlog], nofun⟩
  next log hlog =>
    refine ⟨some (log.compact m).2.1, rfl, ?_⟩
    rintro _ ⟨⟩
    exact ⟨log, hlog, log.journal.compact_state (log.handle, m)⟩

theorem shutdown_eq (b : Broker handle) (m : medium) :
    (b.shutdown m).2.1 = { b with log := none } := by
  unfold shutdown
  split
  next hlog => rw [← hlog]
  next => rfl

theorem compact_live (b : Broker handle) (m : medium) : (b.compact m).2.1.live = b.live := by
  obtain ⟨log, heq, -⟩ := b.compact_eq m
  rw [heq]

theorem compact_isClosed (b : Broker handle) (m : medium) :
    (b.compact m).2.1.isClosed = b.isClosed := by
  unfold compact
  split
  next => rfl
  next log hlog => rw [isClosed, isClosed, hlog]; rfl

theorem shutdown_live (b : Broker handle) (m : medium) : (b.shutdown m).2.1.live = b.live := by
  rw [shutdown_eq]

/-- One call on a broker. -/
inductive Call : Broker handle × medium → Broker handle × medium → Prop
  | perform {α : Type} {d : Decision α} (hd : d.Stepwise) (b : Broker handle) (m : medium) :
      Call (b, m) (b.perform d m).2
  | compact (b : Broker handle) (m : medium) : Call (b, m) (b.compact m).2
  | shutdown (b : Broker handle) (m : medium) : Call (b, m) (b.shutdown m).2
  | connect (b : Broker handle) (m : medium) : Call (b, m) (b.connect.2, m)

/-- Calls one after the other. -/
abbrev Calls : Broker handle × medium → Broker handle × medium → Prop :=
  Relation.ReflTransGen Call

/-- What every call preserves, a run of calls preserves. -/
theorem Calls.preserves (inv : Broker handle → medium → Prop)
    (hcall : ∀ before after, inv before.1 before.2 → Call before after → inv after.1 after.2)
    {before after : Broker handle × medium} (hcalls : Calls before after)
    (h : inv before.1 before.2) : inv after.1 after.2 := by
  induction hcalls with
  | refl => exact h
  | tail _ hlast ih => exact hcall _ _ ih hlast

/-- A broker that is shut down stays so, and touches its log no more. -/
theorem Call.closed {before after : Broker handle × medium} (hclosed : before.1.log = none)
    (hcall : Call before after) : after.1.log = none ∧ after.2 = before.2 := by
  cases hcall with
  | perform hd b m =>
    rw [perform_of_closed hclosed]
    exact ⟨hclosed, rfl⟩
  | compact b m =>
    have hlog : b.log = none := hclosed
    unfold Broker.compact
    rw [hlog]
    exact ⟨hlog, rfl⟩
  | shutdown b m =>
    have hlog : b.log = none := hclosed
    unfold Broker.shutdown
    rw [hlog]
    exact ⟨hlog, rfl⟩
  | connect b m => exact ⟨hclosed, rfl⟩

/-- Nor does anything change in its memory. -/
theorem Call.closed_live {before after : Broker handle × medium} (hclosed : before.1.log = none)
    (hcall : Call before after) : after.1.live = before.1.live := by
  cases hcall with
  | perform hd b m => rw [perform_of_closed hclosed]
  | compact b m => exact b.compact_live m
  | shutdown b m => exact b.shutdown_live m
  | connect b m => rfl

/-- What is done to a broker in one go, with nothing happening in between: an operation, a
consumer joining or leaving, and what does not concern the topology. -/
inductive Move : Broker handle × medium → Broker handle × medium → Prop
  | operation (conn : ConnectionId) (op : Operation) (b : Broker handle) (m : medium) :
      Move (b, m) (b.run conn op m).2
  | join (conn : ConnectionId) (queue : String) (b : Broker handle) (m : medium) :
      Move (b, m) (b.perform (LiveState.attachConsumer conn queue) m).2
  | leave (queue : String) (incarnation : Nat) (b : Broker handle) (m : medium) :
      Move (b, m) (b.perform (LiveState.detachConsumer queue (some incarnation)) m).2
  | release (conn : ConnectionId) (queue : String) (b : Broker handle) (m : medium) :
      Move (b, m) (b.perform (LiveState.deleteQueue conn queue false false) m).2
  | compact (b : Broker handle) (m : medium) : Move (b, m) (b.compact m).2
  | shutdown (b : Broker handle) (m : medium) : Move (b, m) (b.shutdown m).2
  | connect (b : Broker handle) (m : medium) : Move (b, m) (b.connect.2, m)

/-- Moves one after the other. -/
abbrev Moves : Broker handle × medium → Broker handle × medium → Prop :=
  Relation.ReflTransGen Move

theorem Move.call {before after : Broker handle × medium} (h : Move before after) :
    Call before after := by
  cases h with
  | operation conn op b m => exact .perform (op.stepwise b.settings.matcher conn) b m
  | join conn queue b m => exact .perform (LiveState.attachConsumer_stepwise conn queue) b m
  | leave queue incarnation b m =>
    exact .perform (LiveState.detachConsumer_stepwise queue (some incarnation)) b m
  | release conn queue b m =>
    exact .perform (LiveState.deleteQueue_stepwise conn queue false false) b m
  | compact b m => exact .compact b m
  | shutdown b m => exact .shutdown b m
  | connect b m => exact .connect b m

theorem Moves.calls {before after : Broker handle × medium} (h : Moves before after) :
    Calls before after :=
  Relation.ReflTransGen.mono (fun _ _ => Move.call) _ _ h

/-- What a connection does of itself: a consumer joins a queue or leaves it, and a queue goes that
the connection owns. -/
inductive Errand : Broker handle × medium → Broker handle × medium → Prop
  | join (conn : ConnectionId) (queue : String) (b : Broker handle) (m : medium) :
      Errand (b, m) (b.perform (LiveState.attachConsumer conn queue) m).2
  | leave (queue : String) (incarnation : Nat) (b : Broker handle) (m : medium) :
      Errand (b, m) (b.perform (LiveState.detachConsumer queue (some incarnation)) m).2
  | release (conn : ConnectionId) (queue : String) (b : Broker handle) (m : medium) :
      Errand (b, m) (b.perform (LiveState.deleteQueue conn queue false false) m).2

/-- Errands one after the other. -/
abbrev Errands : Broker handle × medium → Broker handle × medium → Prop :=
  Relation.ReflTransGen Errand

theorem Errands.moves {before after : Broker handle × medium} (h : Errands before after) :
    Moves before after := by
  refine Relation.ReflTransGen.mono ?_ _ _ h
  intro _ _ herrand
  cases herrand with
  | join conn queue b m => exact .join conn queue b m
  | leave queue incarnation b m => exact .leave queue incarnation b m
  | release conn queue b m => exact .release conn queue b m

theorem Errands.calls {before after : Broker handle × medium} (h : Errands before after) :
    Calls before after :=
  h.moves.calls

end Broker

/-! ## §2. Connections -/

namespace Connection

open Broker

/-- A consumer is put on its channel if it could join its queue. -/
theorem consume_cases (c : Connection) (number : Nat) (queue : String) (b : Broker handle)
    (m : medium) :
    let joined := b.perform (LiveState.attachConsumer c.id queue) m
    (∃ e, joined.1 = .error e ∧ c.consume number queue b m = (.error e, c, joined.2)) ∨
      ∃ a, joined.1 = .ok a ∧ c.consume number queue b m =
        (.ok (c.tag number), c.addConsumer number ⟨queue, a.2⟩, joined.2) := by
  unfold consume
  rcases b.perform (LiveState.attachConsumer c.id queue) m with ⟨e | a, rest⟩
  · exact Or.inl ⟨e, rfl, rfl⟩
  · exact Or.inr ⟨a, rfl, rfl⟩

theorem consume_errands (c : Connection) (number : Nat) (queue : String) (b : Broker handle)
    (m : medium) : Errands (b, m) (c.consume number queue b m).2.2 := by
  have herrand : Errand (b, m) (b.perform (LiveState.attachConsumer c.id queue) m).2 :=
    .join c.id queue b m
  rcases c.consume_cases number queue b m with ⟨e, -, heq⟩ | ⟨a, -, heq⟩
  · rw [heq]
    exact .single herrand
  · rw [heq]
    exact .single herrand

theorem leave_errands (consumer : Consumer) (b : Broker handle) (m : medium) :
    Errands (b, m) (leave consumer b m).2 :=
  .single (.leave consumer.queue consumer.incarnation b m)

theorem cancel_errands (c : Connection) (number : Nat) (tag : String) (b : Broker handle)
    (m : medium) : Errands (b, m) (c.cancel number tag b m).2.2 := by
  unfold cancel
  split
  next => exact .refl
  next consumer _ => exact leave_errands consumer b m

theorem leaveAll_errands (b : Broker handle) (m : medium) (consumers : List Consumer) :
    Errands (b, m) (leaveAll b m consumers).2 := by
  induction consumers generalizing b m with
  | nil => exact .refl
  | cons consumer consumers ih => exact (leave_errands consumer b m).trans (ih _ _)

theorem closeChannel_errands (c : Connection) (number : Nat) (b : Broker handle) (m : medium) :
    Errands (b, m) (c.closeChannel number b m).2.2 := by
  unfold closeChannel
  split
  next => exact .refl
  next => exact leaveAll_errands b m _

theorem closeChannel_connection (c : Connection) (number : Nat) (b : Broker handle) (m : medium) :
    (c.closeChannel number b m).2.1 = c.eraseChannel number := by
  unfold closeChannel
  split
  next => rfl
  next => rfl

/-- The rest of the channels is closed on what is left of the connection. -/
theorem closeChannels_cons (c : Connection) (b : Broker handle) (m : medium) (number : Nat)
    (numbers : List Nat) :
    closeChannels c b m (number :: numbers) =
      closeChannels (c.eraseChannel number) (c.closeChannel number b m).2.2.1
        (c.closeChannel number b m).2.2.2 numbers := by
  rw [← closeChannel_connection c number b m]
  rfl

theorem closeChannels_id (c : Connection) (b : Broker handle) (m : medium) (numbers : List Nat) :
    (closeChannels c b m numbers).1.id = c.id := by
  induction numbers generalizing c b m with
  | nil => rfl
  | cons number numbers ih =>
    rw [closeChannels_cons, ih]
    rfl

theorem close_eq (c : Connection) (b : Broker handle) (m : medium) :
    c.close b m =
      release c.id (closeChannels c b m c.channels.keys).2.1
        (closeChannels c b m c.channels.keys).2.2 := by
  rw [← closeChannels_id c b m c.channels.keys]
  rfl

theorem closeChannels_errands (c : Connection) (b : Broker handle) (m : medium)
    (numbers : List Nat) : Errands (b, m) (closeChannels c b m numbers).2 := by
  induction numbers generalizing c b m with
  | nil => exact .refl
  | cons number numbers ih => exact (closeChannel_errands c number b m).trans (ih _ _ _)

theorem deleteQueues_errands (conn : ConnectionId) (b : Broker handle) (m : medium)
    (queues : List String) : Errands (b, m) (deleteQueues conn b m queues).2 := by
  induction queues generalizing b m with
  | nil => exact .refl
  | cons queue queues ih =>
    have hdelete : Errands (b, m)
        (b.perform (LiveState.deleteQueue conn queue false false) m).2 :=
      .single (.release conn queue b m)
    unfold deleteQueues
    simp only
    split
    next => exact hdelete
    next => exact hdelete.trans (ih _ _)

theorem release_errands (conn : ConnectionId) (b : Broker handle) (m : medium) :
    Errands (b, m) (release conn b m).2 := by
  unfold release
  split
  next => exact .refl
  next => exact deleteQueues_errands conn b m _

theorem close_errands (c : Connection) (b : Broker handle) (m : medium) :
    Errands (b, m) (c.close b m).2 :=
  (closeChannels_errands c b m c.channels.keys).trans (release_errands _ _ _)

end Connection

/-! ## §3. Servers -/

namespace Server

open Broker

/-- The broker of a server, with its medium. -/
def brokerAfter {α : Type} (r : Outcome (Server handle × medium) Refusal α) :
    Broker handle × medium :=
  (r.2.1.broker, r.2.2)

omit [Medium medium handle] in
/-- On a connection, either nothing happens or what is done there. -/
theorem onConnection_cases {s : Server handle} {m : medium} {conn : ConnectionId}
    {f : Connection → Outcome (Server handle × medium) Refusal Reply}
    {holds : Broker handle × medium → Prop} (hsame : holds (s.broker, m))
    (hf : ∀ c, holds (brokerAfter (f c))) : holds (brokerAfter (s.onConnection conn m f)) := by
  unfold onConnection
  split
  next => exact hsame
  next c _ => exact hf c

omit [Medium medium handle] in
theorem onChannel_cases {s : Server handle} {m : medium} {conn : ConnectionId} {channel : Nat}
    {f : Connection → Outcome (Connection × Broker handle × medium) Refusal Reply}
    {holds : Broker handle × medium → Prop} (hsame : holds (s.broker, m))
    (hf : ∀ c, holds (f c).2.2) : holds (brokerAfter (s.onChannel conn channel m f)) := by
  refine onConnection_cases hsame ?_
  intro c
  split
  next => exact hf c
  next => exact hsame

/-- Every request is a run of moves on the broker. -/
theorem serve_moves (s : Server handle) (m : medium) (q : Request) :
    Moves (s.broker, m) (brokerAfter (s.serve m q)) := by
  cases q with
  | operation op => exact .single (.operation .admin op s.broker m)
  | compact => exact .single (.compact s.broker m)
  | shutdown => exact .single (.shutdown s.broker m)
  | connect => exact .single (.connect s.broker m)
  | openChannel conn => exact onConnection_cases .refl fun c => .refl
  | closeConnection conn =>
    exact onConnection_cases .refl fun c => (c.close_errands s.broker m).moves
  | onChannel conn channel op =>
    exact onChannel_cases .refl fun c => .single (.operation conn op s.broker m)
  | consume conn channel queue =>
    exact onChannel_cases .refl fun c => (c.consume_errands channel queue s.broker m).moves
  | cancel conn channel tag =>
    exact onChannel_cases .refl fun c => (c.cancel_errands channel tag s.broker m).moves
  | closeChannel conn channel =>
    exact onChannel_cases .refl fun c => (c.closeChannel_errands channel s.broker m).moves

/-- So it is a run of calls. -/
theorem serve_calls (s : Server handle) (m : medium) (q : Request) :
    Calls (s.broker, m) (brokerAfter (s.serve m q)) :=
  (s.serve_moves m q).calls

/-- What is asked of a broker that is shut down does not reach its log. -/
theorem serve_closed {s : Server handle} (hclosed : s.broker.log = none) (m : medium)
    (q : Request) : (s.serve m q).2.1.broker.log = none ∧ (s.serve m q).2.2 = m := by
  refine (s.serve_calls m q).preserves (fun b m' => b.log = none ∧ m' = m) ?_ ⟨hclosed, rfl⟩
  rintro before after ⟨hlog, hm⟩ hcall
  obtain ⟨hlog', hm'⟩ := hcall.closed hlog
  exact ⟨hlog', hm'.trans hm⟩

/-- Nor its memory. -/
theorem serve_closed_live {s : Server handle} (hclosed : s.broker.log = none) (m : medium)
    (q : Request) : (s.serve m q).2.1.broker.live = s.broker.live := by
  refine ((s.serve_calls m q).preserves
    (fun b _ => b.log = none ∧ b.live = s.broker.live) ?_ ⟨hclosed, rfl⟩).2
  rintro before after ⟨hlog, hlive⟩ hcall
  exact ⟨(hcall.closed hlog).1, (hcall.closed_live hlog).trans hlive⟩

end Server

end BrokerTopology
