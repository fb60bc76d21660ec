/-
  BrokerTopology.Proofs.Deliveries — what waits in a queue is what was
  published to it, less what was taken.

  Messages are kept by the name of their queue alone.  So what waits
  under a name has to go when the queue does, whatever takes the queue
  along; and a queue that is declared later finds nothing there.

  `Story` is a broker with everything that was done on it, the latest
  first.  `backlog` reads off a story what should wait in a queue: of
  what was done since the queue was taken in, a message that was
  published and reached the queue is put behind the others, a message
  that was fetched is taken away in front, and a purge leaves nothing.
  `Topology.reaches` says which queues a message reaches, from the
  bindings alone, and `Binding.carries` which keys a binding is for.

  Main statements:
    * `Matcher.accepts_eq_carries` — the broker decides it alike.
    * `Operation.Effect.pending_of_quiet` — an operation that handles no
      messages leaves those of every queue that stays.
    * `Broker.Task.carry_pending` — one thing that is done on a broker.
    * `Broker.Story.messages_delivered` — what waits in each queue, at every
      point of a run, and what is answered there.
-/
import BrokerTopology.Proofs.AutoDelete
import BrokerTopology.Proofs.OperationEffects

namespace BrokerTopology

/-! ## §1. Who is reached -/

/-- Whether a binding carries a routing key, by the kind of its exchange: a direct one compares the
keys, a fanout one takes any, and a topic one has a pattern to match word by word. -/
def Binding.carries (b : Binding) (kind : ExchangeKind) (key : String) : Bool :=
  match kind with
  | .direct => b.routingKey == key
  | .fanout => true
  | .topic => TopicPattern.matchWords (TopicPattern.words b.routingKey) (TopicPattern.words key)

/-- What the broker accepts is what is carried; it tries a pattern on all ends of a key together. -/
theorem Matcher.accepts_eq_carries (kind : ExchangeKind) (b : Binding) (key : String) :
    Matcher.accepts kind b key = b.carries kind key := by
  cases kind with
  | direct => rfl
  | fanout => rfl
  | topic => exact TopicPattern.matchesKey_eq b.routingKey key

/-- Whether a message reaches a queue: the one that the key names, through the default exchange;
through any other, one with a binding that carries the key. -/
def Topology.reaches (t : Topology) (exchange key queue : String) : Bool :=
  if exchange = Name.defaultExchange then queue == key && t.registry.hasQueue queue
  else
    (t.registry.exchange? exchange).any fun x =>
      t.bindings.toList.any fun b =>
        b.exchange == exchange && b.queue == queue && b.carries x.definition.kind key

theorem Topology.reaches_iff {t : Topology} (h : t.bindings.Consistent)
    {exchange key queue : String} :
    t.reaches exchange key queue = true ↔
      if exchange = Name.defaultExchange then queue = key ∧ t.registry.hasQueue queue = true
      else ∃ x, t.registry.exchange? exchange = some x ∧ ∃ b ∈ t.bindings,
        b.exchange = exchange ∧ b.queue = queue ∧ b.carries x.definition.kind key = true := by
  unfold reaches
  split
  next => rw [Bool.and_eq_true, beq_iff_eq]
  next =>
    cases t.registry.exchange? exchange with
    | none => simp
    | some x => simp [List.any_eq_true, h.mem_toList, and_assoc]

theorem Topology.WellFormed.hasQueue_of_reaches {t : Topology} (h : t.WellFormed)
    {exchange key queue : String} (hreaches : t.reaches exchange key queue = true) :
    t.registry.hasQueue queue = true := by
  have hreaches := (reaches_iff h.table).1 hreaches
  split at hreaches
  next => exact hreaches.2
  next =>
    obtain ⟨x, -, b, hb, -, rfl, -⟩ := hreaches
    exact h.queue_of_binding b hb

namespace LiveState

variable {s : LiveState}

/-- The queues that are chosen are those that are reached. -/
theorem mem_destinations (h : s.topology.WellFormed) {exchange key queue : String} {x : Exchange}
    (hx : s.topology.registry.exchange? exchange = some x) :
    queue ∈ s.destinations .byKey x key ↔ s.topology.reaches exchange key queue = true := by
  have hname := (h.exchange_filed _ _ hx).1
  rw [Topology.reaches_iff h.table]
  split
  next hdefault =>
    rw [mem_destinations_default (hname.trans hdefault)]
    constructor
    · rintro ⟨rfl, hq⟩
      exact ⟨rfl, hq⟩
    · rintro ⟨rfl, hq⟩
      exact ⟨rfl, hq⟩
  next hdefault =>
    have hchosen : queue ∈ s.destinations .byKey x key ↔
        queue ∈ Matcher.byKey x.definition.kind (s.topology.bindings.ofExchange exchange) key ∧
          s.topology.registry.hasQueue queue = true := by
      simp [destinations, hname, hdefault, Std.ExtTreeSet.mem_filter]
    rw [hchosen, Matcher.mem_byKey]
    simp only [Matcher.accepts_eq_carries]
    constructor
    · rintro ⟨⟨b, hb, hcarries, hqueue⟩, -⟩
      obtain ⟨hb, hexchange⟩ := h.table.mem_ofExchange.1 hb
      exact ⟨x, hx, b, hb, hexchange, hqueue, hcarries⟩
    · rintro ⟨x', hx', b, hb, hexchange, hqueue, hcarries⟩
      obtain rfl : x' = x := Option.some.inj (hx'.symm.trans hx)
      refine ⟨⟨b, h.table.mem_ofExchange.2 ⟨hb, hexchange⟩, hcarries, hqueue⟩, ?_⟩
      -- the registry filters none of them out: what is bound is there
      rw [← hqueue]
      exact h.queue_of_binding b hb

/-! ## §2. What operations do to messages -/

/-- Messages wait only in queues that are there. -/
def Tidy (s : LiveState) : Prop :=
  ∀ queue, s.topology.registry.hasQueue queue = false → s.mailboxes.pending queue = []

/-- Where no queue goes, nothing has to be dropped. -/
theorem Tidy.kept (h : s.Tidy) {s' : LiveState} {queue : String}
    (hpending : s'.mailboxes.pending queue = s.mailboxes.pending queue)
    (hqueues : s.topology.registry.hasQueue queue = true →
      s'.topology.registry.hasQueue queue = true) :
    s'.mailboxes.pending queue =
      if s'.topology.registry.hasQueue queue then s.mailboxes.pending queue else [] := by
  split
  next => exact hpending
  next hgone =>
    rw [hpending]
    exact h queue (Bool.eq_false_iff.2 fun hq => hgone (hqueues hq))

end LiveState

namespace Operation

open LiveState

variable {matcher : Matcher} {conn : ConnectionId} {s s' : LiveState} {op : Operation}

/-- An operation that handles no messages leaves those under a name, and a queue that has the name;
or it drops them, and then no queue has the name. -/
theorem Effect.kept_or_dropped (heffect : Effect matcher conn s op s')
    (hop : op.handlesMessages = false) (queue : String) :
    (s'.mailboxes.pending queue = s.mailboxes.pending queue ∧
        (s.topology.registry.hasQueue queue = true →
          s'.topology.registry.hasQueue queue = true)) ∨
      s'.mailboxes.pending queue = [] ∧ s'.topology.registry.hasQueue queue = false := by
  cases heffect with
  | same => exact Or.inl ⟨rfl, id⟩
  | names => exact Or.inl ⟨rfl, id⟩
  | exchange => exact Or.inl ⟨rfl, id⟩
  | @queue d d' _ g =>
    refine Or.inl ⟨rfl, fun hq => ?_⟩
    obtain ⟨q, hq⟩ := Registry.hasQueue_iff.1 hq
    refine Registry.hasQueue_iff.2 ?_
    show ∃ q, ((s.topology.withGenerator g).addQueue d' (ownerOf conn d')).registry.queue? queue =
      some q
    rw [Topology.queue?_addQueue]
    split
    next => exact ⟨_, rfl⟩
    next => exact ⟨q, hq⟩
  | @binding b =>
    refine Or.inl ⟨rfl, fun hq => ?_⟩
    show (s.topology.addBinding b).registry.hasQueue queue = true
    rwa [(Topology.addBinding_rest s.topology b).1]
  | @removed _ r _ _ hs' =>
    have hqueues := hs'.topology.queues queue
    -- the queue itself goes with its messages; or it stays, and so do they
    by_cases hr : r = .queue queue
    · rw [if_pos hr, ← Registry.hasQueue_eq_false_iff] at hqueues
      exact Or.inr ⟨(hs'.pending queue).trans (if_pos hr), hqueues⟩
    · rw [if_neg hr] at hqueues
      refine Or.inl ⟨(hs'.pending queue).trans (if_neg hr), fun hq => ?_⟩
      rw [Registry.hasQueue_iff] at hq ⊢
      rwa [hqueues]
  | published => cases hop
  | fetched => cases hop
  | purged => cases hop
  | joined => exact Or.inl ⟨rfl, id⟩
  | nobodyLeft => exact Or.inl ⟨rfl, id⟩
  | left => exact Or.inl ⟨rfl, id⟩

/-- An operation that handles no messages leaves those of every queue that stays, and drops those
of one that goes. -/
theorem Effect.pending_of_quiet (heffect : Effect matcher conn s op s')
    (hop : op.handlesMessages = false) (h : s.Tidy) (queue : String) :
    s'.mailboxes.pending queue =
      if s'.topology.registry.hasQueue queue then s.mailboxes.pending queue else [] := by
  rcases heffect.kept_or_dropped hop queue with ⟨hpending, hqueues⟩ | ⟨hpending, hgone⟩
  · exact h.kept hpending hqueues
  · rw [hpending, hgone]
    rfl

end Operation

namespace Broker

/-! ## §3. Stories -/

/-- What is done on a broker in one go. -/
inductive Task where
  | operation (conn : ConnectionId) (op : Operation)
  /-- A consumer joins, leaves, or goes with its channel. -/
  | join (conn : ConnectionId) (queue : String)
  | leave (queue : String) (incarnation : Nat)
  /-- A queue is deleted with the connection that owns it. -/
  | release (conn : ConnectionId) (queue : String)
  | compact
  | shutdown
  | connect
deriving DecidableEq

/-- Something that was done: what was there before, and what came of it. -/
structure Deed where
  before : Topology
  task : Task
  result : Except Refusal Answer

/-- What should wait in a queue after something was done, by what waited there before. -/
def Deed.turn (d : Deed) (queue : String) (waiting : List Message) : List Message :=
  match d.task, d.result with
  | .operation _ (.publish message), .ok _ =>
    if d.before.reaches message.exchange message.routingKey queue then waiting ++ [message]
    else waiting
  | .operation _ (.fetch name), .ok (.message (some _)) =>
    if name = queue then waiting.drop 1 else waiting
  | .operation _ (.purge name), .ok _ => if name = queue then [] else waiting
  | _, _ => waiting

/-- What should wait in a queue of a record after a story, the latest first: what was done since
the record was taken in. -/
def backlog (past : List Deed) (queue : String) (r : Queue) : List Message :=
  (past.takeWhile fun d => d.before.registry.queue? queue = some r).foldr
    (fun d waiting => d.turn queue waiting) []

theorem backlog_cons (d : Deed) (past : List Deed) (queue : String) (r : Queue) :
    backlog (d :: past) queue r =
      if d.before.registry.queue? queue = some r then d.turn queue (backlog past queue r)
      else [] := by
  unfold backlog
  rw [List.takeWhile_cons]
  split
  next h => rw [if_pos (of_decide_eq_true h), List.foldr_cons]
  next h => rw [if_neg fun heq => h (decide_eq_true heq), List.foldr_nil]

/-- What is refused changes nothing. -/
theorem Deed.turn_of_error {d : Deed} {e : Refusal} (he : d.result = .error e) (queue : String)
    (waiting : List Message) : d.turn queue waiting = waiting := by
  unfold turn
  rw [he]
  split
  all_goals first | rfl | contradiction

/-- Whether a task handles messages. -/
def Task.handlesMessages : Task → Bool
  | operation _ op => op.handlesMessages
  | _ => false

theorem Deed.turn_of_quiet {d : Deed} (hd : d.task.handlesMessages = false) (queue : String)
    (waiting : List Message) : d.turn queue waiting = waiting := by
  unfold turn
  split
  next heq _ => rw [heq] at hd; cases hd
  next heq _ => rw [heq] at hd; cases hd
  next heq _ => rw [heq] at hd; cases hd
  next => rfl

/-- Nothing waits in a queue that was not there. -/
theorem Deed.turn_of_absent {d : Deed} (h : d.before.WellFormed) {queue : String}
    (hnone : d.before.registry.hasQueue queue = false) : d.turn queue [] = [] := by
  unfold turn
  split
  next message _ _ _ =>
    rw [if_neg]
    intro hreaches
    rw [h.hasQueue_of_reaches hreaches] at hnone
    cases hnone
  next => exact ite_self _
  next => exact ite_self _
  next => rfl

/-- The oldest message is taken away, if there is one. -/
theorem Deed.turn_of_fetch (t : Topology) (conn : ConnectionId) (m : Mailboxes)
    (name queue : String) :
    turn ⟨t, .operation conn (.fetch name), .ok (.message (m.pop name).1)⟩ queue
        (m.pending queue) = (m.pop name).2.pending queue := by
  rw [Mailboxes.pending_pop, Mailboxes.pop_fst]
  cases hpending : m.pending name with
  | nil =>
    show m.pending queue = if name = queue then [] else m.pending queue
    split
    next hname => rw [← hname, hpending]
    next => rfl
  | cons message rest =>
    show (if name = queue then (m.pending queue).drop 1 else m.pending queue) =
      if name = queue then rest else m.pending queue
    split
    next hname => rw [← hname, hpending, List.drop_one, List.tail_cons]
    next => rfl

/-! ## §4. One task -/

/-- If no queue goes, nothing has to be dropped, and nothing comes of a queue that is not there. -/
theorem turn_kept {d : Deed} {s : LiveState} (hbefore : d.before = s.topology)
    (hwf : s.topology.WellFormed) (htidy : s.Tidy) (queue : String) :
    d.turn queue (s.mailboxes.pending queue) =
      if s.topology.registry.hasQueue queue then d.turn queue (s.mailboxes.pending queue)
      else [] := by
  split
  next => rfl
  next hq =>
    have hnone := Bool.eq_false_iff.2 hq
    rw [htidy queue hnone]
    rw [← hbefore] at hwf hnone
    exact Deed.turn_of_absent hwf hnone

/-- An operation that succeeds. -/
theorem pending_of_ok {conn : ConnectionId} {op : Operation} {s : LiveState}
    {change : Change Answer} (hwf : s.topology.WellFormed) (htidy : s.Tidy)
    (hd : op.decide .byKey conn s = .ok change) (queue : String) :
    change.live.mailboxes.pending queue =
      if change.live.topology.registry.hasQueue queue then
        Deed.turn ⟨s.topology, .operation conn op, .ok change.answer⟩ queue
          (s.mailboxes.pending queue)
      else [] := by
  -- operations that handle messages take no queue in and remove none
  cases hmessages : op.handlesMessages with
  | false =>
    rw [Deed.turn_of_quiet (show Task.handlesMessages (.operation conn op) = false from hmessages)]
    exact (Operation.effect hwf hd).pending_of_quiet hmessages htidy queue
  | true =>
    cases op with
    | publish message =>
      obtain ⟨inner, hinner, rfl⟩ := ok_of_map hd
      obtain ⟨x, hx, rfl⟩ := LiveState.publish_ok hinner
      refine Eq.trans ?_ (turn_kept rfl hwf htidy queue)
      show (s.mailboxes.deliver _ message).pending queue = _
      rw [Mailboxes.pending_deliver]
      simp only [LiveState.mem_destinations hwf hx]
      rfl
    | fetch name =>
      obtain ⟨inner, hinner, rfl⟩ := ok_of_map hd
      obtain ⟨-, rfl⟩ := LiveState.fetch_ok hinner
      exact (Deed.turn_of_fetch s.topology conn s.mailboxes name queue).symm.trans
        (turn_kept rfl hwf htidy queue)
    | purge name =>
      obtain ⟨inner, hinner, rfl⟩ := ok_of_map hd
      obtain ⟨-, rfl⟩ := LiveState.purge_ok hinner
      refine Eq.trans ?_ (turn_kept rfl hwf htidy queue)
      exact Mailboxes.pending_clear s.mailboxes name queue
    | _ => cases hmessages

variable {medium handle : Type} [Medium medium handle]

/-- Carry a task out.  Only operations have an answer. -/
def Task.carry (b : Broker handle) (m : medium) :
    Task → Outcome (Broker handle × medium) Refusal Answer
  | operation conn op => b.run conn op m
  | join conn queue =>
    let (result, after) := b.perform (LiveState.attachConsumer conn queue) m
    (result.map fun _ => .done, after)
  | leave queue incarnation =>
    let (result, after) := b.perform (LiveState.detachConsumer queue (some incarnation)) m
    (result.map fun _ => .done, after)
  | release conn queue =>
    let (result, after) := b.perform (LiveState.deleteQueue conn queue false false) m
    (result.map fun _ => .done, after)
  | compact =>
    let (result, after) := b.compact m
    (result.map fun _ => .done, after)
  | shutdown =>
    let (result, after) := b.shutdown m
    (result.map fun _ => .done, after)
  | connect => (.ok .done, b.connect.2, m)

theorem Task.move (b : Broker handle) (m : medium) (task : Task) :
    Move (b, m) (task.carry b m).2 := by
  cases task with
  | operation conn op => exact .operation conn op b m
  | join conn queue => exact .join conn queue b m
  | leave queue incarnation => exact .leave queue incarnation b m
  | release conn queue => exact .release conn queue b m
  | compact => exact .compact b m
  | shutdown => exact .shutdown b m
  | connect => exact .connect b m

theorem Move.exists_task {before after : Broker handle × medium} (h : Move before after) :
    ∃ task : Task, (task.carry before.1 before.2).2 = after := by
  cases h with
  | operation conn op b m => exact ⟨.operation conn op, rfl⟩
  | join conn queue b m => exact ⟨.join conn queue, rfl⟩
  | leave queue incarnation b m => exact ⟨.leave queue incarnation, rfl⟩
  | release conn queue b m => exact ⟨.release conn queue, rfl⟩
  | compact b m => exact ⟨.compact, rfl⟩
  | shutdown b m => exact ⟨.shutdown, rfl⟩
  | connect b m => exact ⟨.connect, rfl⟩

theorem Task.carry_settings (b : Broker handle) (m : medium) (task : Task) :
    (task.carry b m).2.1.settings = b.settings := by
  cases task with
  | operation => exact (perform_rest _ b m).1
  | join => exact (perform_rest _ b m).1
  | leave => exact (perform_rest _ b m).1
  | release => exact (perform_rest _ b m).1
  | compact =>
    obtain ⟨log, heq, -⟩ := b.compact_eq m
    show (b.compact m).2.1.settings = b.settings
    rw [heq]
  | shutdown =>
    show (b.shutdown m).2.1.settings = b.settings
    rw [b.shutdown_eq m]
  | connect => rfl

/-- What is quiet if it succeeds is quiet whatever becomes of it. -/
theorem perform_pending {α : Type} {d : Decision α} {b : Broker handle} (htidy : b.live.Tidy)
    (hd : ∀ change, d b.live = .ok change → ∃ conn op, op.handlesMessages = false ∧
      Operation.Effect b.settings.matcher conn b.live op change.live) (m : medium)
    (queue : String) :
    (b.perform d m).2.1.live.mailboxes.pending queue =
      if (b.perform d m).2.1.live.topology.registry.hasQueue queue then
        b.live.mailboxes.pending queue
      else [] := by
  let P : LiveState → Prop := fun s => s.mailboxes.pending queue =
    if s.topology.registry.hasQueue queue then b.live.mailboxes.pending queue else []
  refine perform_live (P := P) (htidy.kept rfl id) (fun _ _ => htidy.kept rfl id) ?_ m
  intro change hchange
  obtain ⟨conn, op, hop, heffect⟩ := hd change hchange
  exact heffect.pending_of_quiet hop htidy queue

/-- What waits in each queue after a task is what should, by what waited before; nothing waits
where no queue is. -/
theorem Task.carry_pending {b : Broker handle} (hwf : b.live.topology.WellFormed)
    (htidy : b.live.Tidy) (hmatcher : b.settings.matcher = .byKey) (task : Task) (m : medium)
    (queue : String) :
    (task.carry b m).2.1.live.mailboxes.pending queue =
      if (task.carry b m).2.1.live.topology.registry.hasQueue queue then
        Deed.turn ⟨b.live.topology, task, (task.carry b m).1⟩ queue
          (b.live.mailboxes.pending queue)
      else [] := by
  cases task with
  | operation conn op =>
    have hperformed := performed (op.decide b.settings.matcher conn) b m
    show (b.perform (op.decide b.settings.matcher conn) m).2.1.live.mailboxes.pending queue =
      if (b.perform (op.decide b.settings.matcher conn) m).2.1.live.topology.registry.hasQueue queue
      then Deed.turn ⟨b.live.topology, .operation conn op,
          (b.perform (op.decide b.settings.matcher conn) m).1⟩ queue
        (b.live.mailboxes.pending queue)
      else []
    generalize b.perform (op.decide b.settings.matcher conn) m = outcome at hperformed ⊢
    cases hperformed with
    | closed =>
      rw [Deed.turn_of_error rfl]
      exact htidy.kept rfl id
    | refused =>
      rw [Deed.turn_of_error rfl]
      exact htidy.kept rfl id
    | unrecorded =>
      rw [Deed.turn_of_error rfl]
      exact htidy.kept rfl id
    | recorded _ hchange _ =>
      rw [hmatcher] at hchange
      exact pending_of_ok hwf htidy hchange queue
  | join conn name =>
    rw [Deed.turn_of_quiet rfl]
    refine perform_pending htidy (fun change hchange => ?_) m queue
    exact ⟨conn, _, rfl, LiveState.attachConsumer_effect _ hchange⟩
  | leave name incarnation =>
    rw [Deed.turn_of_quiet rfl]
    refine perform_pending htidy (fun change hchange => ?_) m queue
    exact ⟨.admin, _, rfl, (LiveState.detachConsumer_effect _ _ hwf hchange).2⟩
  | release conn name =>
    rw [Deed.turn_of_quiet rfl]
    refine perform_pending htidy (fun change hchange => ?_) m queue
    exact ⟨conn, _, rfl, LiveState.deleteQueue_effect _ hwf hchange⟩
  | compact =>
    rw [Deed.turn_of_quiet rfl]
    show (b.compact m).2.1.live.mailboxes.pending queue =
      if (b.compact m).2.1.live.topology.registry.hasQueue queue then
        b.live.mailboxes.pending queue
      else []
    rw [b.compact_live m]
    exact htidy.kept rfl id
  | shutdown =>
    rw [Deed.turn_of_quiet rfl]
    show (b.shutdown m).2.1.live.mailboxes.pending queue =
      if (b.shutdown m).2.1.live.topology.registry.hasQueue queue then
        b.live.mailboxes.pending queue
      else []
    rw [b.shutdown_live m]
    exact htidy.kept rfl id
  | connect =>
    rw [Deed.turn_of_quiet rfl]
    exact htidy.kept rfl id

/-! ## §5. Runs -/

/-- A broker, and what was done on it, the latest first: it was opened with the matcher that goes
by keys and with no messages, and then one thing after the other was done, with the medium in any
state each time. -/
inductive Story (medium : Type) {handle : Type} [Medium medium handle] :
    Broker handle → List Deed → Prop
  | opened {settings : BrokerSettings} {nonce : UInt64} {m : medium} {b : Broker handle}
      (hmatcher : settings.matcher = .byKey) (hopen : (openOn settings nonce .empty m).1 = .ok b) :
      Story medium b []
  | done {b : Broker handle} {past : List Deed} (h : Story medium b past) (task : Task)
      (m : medium) :
      Story medium (task.carry b m).2.1 (⟨b.live.topology, task, (task.carry b m).1⟩ :: past)

/-- What is kept up by whatever is done. -/
structure Accounts (b : Broker handle) (past : List Deed) : Prop where
  wellFormed : b.live.topology.WellFormed
  matcher : b.settings.matcher = .byKey
  tidy : b.live.Tidy
  pending : ∀ queue r, b.live.topology.registry.queue? queue = some r →
    b.live.mailboxes.pending queue = backlog past queue r

/-- A record that is there after a task was there before, or none was under its name. -/
theorem Task.queue?_before {b : Broker handle} (hwf : b.live.topology.WellFormed) (task : Task)
    (m : medium) {queue : String} {r : Queue}
    (hr : (task.carry b m).2.1.live.topology.registry.queue? queue = some r) :
    b.live.topology.registry.queue? queue = some r ∨
      b.live.topology.registry.queue? queue = none := by
  cases hbefore : b.live.topology.registry.queue? queue with
  | none => exact Or.inr rfl
  | some r' => exact Or.inl (congrArg some
      ((task.move b m).noneMissed hwf |>.queue_kept queue r' r hbefore hr).symm)

theorem Accounts.done {b : Broker handle} {past : List Deed} (h : b.Accounts past) (task : Task)
    (m : medium) :
    (task.carry b m).2.1.Accounts (⟨b.live.topology, task, (task.carry b m).1⟩ :: past) := by
  have hpending := task.carry_pending h.wellFormed h.tidy h.matcher m
  refine ⟨(task.move b m).call.wellFormed h.wellFormed, (task.carry_settings b m).symm ▸ h.matcher,
    ?_, ?_⟩
  · intro queue hnone
    rw [hpending, hnone]
    rfl
  · intro queue r hr
    rw [hpending, if_pos (Registry.hasQueue_iff.2 ⟨r, hr⟩), backlog_cons]
    rcases task.queue?_before h.wellFormed m hr with hbefore | hbefore
    · rw [if_pos hbefore, h.pending queue r hbefore]
    · -- the record was taken in just now
      have hnone := Registry.hasQueue_eq_false_iff.2 hbefore
      rw [if_neg (by simp [hbefore]), h.tidy queue hnone]
      exact Deed.turn_of_absent h.wellFormed hnone

theorem Story.accounts {b : Broker handle} {past : List Deed} (h : Story medium b past) :
    b.Accounts past := by
  induction h with
  | opened hmatcher hopen =>
    have hwf := openOn_wellFormed hopen
    obtain ⟨log, entries, -, rfl⟩ := openOn_log hopen
    exact ⟨hwf, hmatcher, fun _ _ => rfl, fun _ _ _ => rfl⟩
  | done _ task m ih => exact ih.done task m

/-- Moves are things that are done. -/
theorem Story.moves {before after : Broker handle × medium} {past : List Deed}
    (h : Story medium before.1 past) (hmoves : Moves before after) :
    ∃ between, Story medium after.1 (between ++ past) := by
  induction hmoves with
  | refl => exact ⟨[], h⟩
  | @tail middle _ _ hlast ih =>
    obtain ⟨between, hbetween⟩ := ih
    obtain ⟨task, htask⟩ := hlast.exists_task
    subst htask
    exact ⟨_ :: between, hbetween.done task middle.2⟩

/-! ## §6. Answers -/

/-- What has nothing to be recorded succeeds on any log. -/
theorem perform_of_no_ops {α : Type} {d : Decision α} {b : Broker handle}
    (hopen : b.isClosed = false) {change : Change α} (hd : d b.live = .ok change)
    (hops : change.ops = []) (m : medium) :
    (b.perform d m).1 = .ok change.answer ∧ (b.perform d m).2.1.live = change.live := by
  cases hlog : b.log with
  | none =>
    rw [isClosed, hlog] at hopen
    cases hopen
  | some log =>
    unfold perform
    rw [hlog]
    simp only [hd, hops]
    exact ⟨rfl, rfl⟩

/-- What the operations that handle messages answer and do, and what the deletion and the
declaration of a queue say of its messages. -/
structure Dispatches (medium : Type) {handle : Type} [Medium medium handle] (b : Broker handle) :
    Prop where
  /-- One copy to every queue that is reached, and the number of those. -/
  publish : ∀ (conn : ConnectionId) (message : Message) (m : medium), b.isClosed = false →
    b.live.topology.registry.hasExchange message.exchange = true →
      let after := b.run conn (.publish message) m
      ∃ queues : NameSet,
        (∀ queue, queue ∈ queues ↔
          b.live.topology.reaches message.exchange message.routingKey queue = true) ∧
        after.1 = .ok (.count queues.size) ∧
        ∀ queue, after.2.1.live.mailboxes.pending queue =
          if queue ∈ queues then b.live.mailboxes.pending queue ++ [message]
          else b.live.mailboxes.pending queue
  /-- The oldest message. -/
  fetch : ∀ (conn : ConnectionId) (name : String) (q : Queue) (m : medium), b.isClosed = false →
    b.live.queueFor conn name = .ok q →
      let after := b.run conn (.fetch name) m
      after.1 = .ok (.message (b.live.mailboxes.pending name).head?) ∧
        ∀ queue, after.2.1.live.mailboxes.pending queue =
          if name = queue then (b.live.mailboxes.pending name).tail
          else b.live.mailboxes.pending queue
  purge : ∀ (conn : ConnectionId) (name : String) (q : Queue) (m : medium), b.isClosed = false →
    b.live.queueFor conn name = .ok q →
      let after := b.run conn (.purge name) m
      after.1 = .ok (.count (b.live.mailboxes.pending name).length) ∧
        ∀ queue, after.2.1.live.mailboxes.pending queue =
          if name = queue then [] else b.live.mailboxes.pending queue
  deleteQueue : ∀ (conn : ConnectionId) (name : String) (ifUnused ifEmpty : Bool) (m : medium) a,
    let after := b.run conn (.deleteQueue name ifUnused ifEmpty) m
    after.1 = .ok a → a = .count (b.live.mailboxes.pending name).length ∧
      ∀ queue, after.2.1.live.mailboxes.pending queue =
        if name = queue then [] else b.live.mailboxes.pending queue
  declareQueue : ∀ (conn : ConnectionId) (d : QueueDef) (passive : Bool) (m : medium) declared,
    let after := b.run conn (.declareQueue d passive) m
    after.1 = .ok (.declared declared) →
      declared.messages = (b.live.mailboxes.pending declared.queue).length ∧
        ∀ queue, after.2.1.live.mailboxes.pending queue = b.live.mailboxes.pending queue

theorem Accounts.dispatches {b : Broker handle} {past : List Deed} (h : b.Accounts past) :
    b.Dispatches medium where
  publish conn message m hopen hexchange := by
    obtain ⟨x, hx⟩ := Registry.hasExchange_iff.1 hexchange
    have hfound : b.live.exchangeOf message.exchange = .ok x := by
      rw [LiveState.exchangeOf, hx]
    let queues := b.live.destinations .byKey x message.routingKey
    have hd : (Operation.publish message).decide b.settings.matcher conn b.live =
        .ok { answer := .count queues.size
              live := { b.live with mailboxes := b.live.mailboxes.deliver queues message } } := by
      rw [h.matcher, Operation.decide, Decision.map, LiveState.publish, hfound]
      rfl
    obtain ⟨hok, hlive⟩ := perform_of_no_ops hopen hd rfl m
    refine ⟨queues, fun queue => LiveState.mem_destinations h.wellFormed hx, hok, fun queue => ?_⟩
    rw [run, hlive]
    exact Mailboxes.pending_deliver _ _ _ _
  fetch conn name q m hopen hqueue := by
    have hd : (Operation.fetch name).decide b.settings.matcher conn b.live =
        .ok { answer := .message (b.live.mailboxes.pop name).1
              live := { b.live with mailboxes := (b.live.mailboxes.pop name).2 } } := by
      rw [Operation.decide, Decision.map, LiveState.fetch, hqueue]
      rfl
    obtain ⟨hok, hlive⟩ := perform_of_no_ops hopen hd rfl m
    refine ⟨(Mailboxes.pop_fst _ _) ▸ hok, fun queue => ?_⟩
    rw [run, hlive]
    exact Mailboxes.pending_pop _ _ _
  purge conn name q m hopen hqueue := by
    have hd : (Operation.purge name).decide b.settings.matcher conn b.live =
        .ok { answer := .count (b.live.mailboxes.count name)
              live := { b.live with mailboxes := b.live.mailboxes.clear name } } := by
      rw [Operation.decide, Decision.map, LiveState.purge, hqueue]
      rfl
    obtain ⟨hok, hlive⟩ := perform_of_no_ops hopen hd rfl m
    refine ⟨hok, fun queue => ?_⟩
    rw [run, hlive]
    exact Mailboxes.pending_clear _ _ _
  deleteQueue conn name ifUnused ifEmpty m a hok := by
    obtain ⟨change, hchange, rfl, hlive⟩ := ok_of_perform hok
    obtain ⟨hwithout, hanswer⟩ := Operation.decide_without h.wellFormed rfl hchange
    refine ⟨hanswer _ _ _ rfl, fun queue => ?_⟩
    rw [run, hlive, hwithout.pending]
    simp
  declareQueue conn d passive m declared hok := by
    obtain ⟨change, hchange, hanswer, hlive⟩ := ok_of_perform hok
    obtain ⟨inner, hinner, rfl⟩ := ok_of_map hchange
    obtain rfl : inner.answer = declared := Answer.declared.inj hanswer
    obtain ⟨d', g, -, -, hnamed⟩ := LiveState.declareQueue_ok hinner
    rw [run, hlive]
    obtain rfl | ⟨-, rfl⟩ := LiveState.declareNamedQueue_ok hnamed
    · exact ⟨rfl, fun _ => rfl⟩
    · exact ⟨rfl, fun _ => rfl⟩

/-- At every point of every run, whatever was done and whatever the medium was like.  What waits
in a queue is what its backlog says: what was published to it since it was taken in, in that
order, but for what was fetched in front and for what was purged; and where no queue is, nothing
waits.  A message that is published goes behind the others of the queues that it reaches, once
each, and nowhere else, and their number is answered; what is fetched is the oldest message; and
the lengths that are reported are right. -/
theorem Story.messages_delivered {b : Broker handle} {past : List Deed}
    (h : Story medium b past) :
    (∀ queue r, b.live.topology.registry.queue? queue = some r →
      b.live.mailboxes.pending queue = backlog past queue r ∧
        b.live.mailboxes.count queue = (backlog past queue r).length) ∧
      (∀ queue, b.live.topology.registry.hasQueue queue = false →
        b.live.mailboxes.pending queue = []) ∧
      b.Dispatches medium := by
  have haccounts := h.accounts
  refine ⟨fun queue r hr => ?_, haccounts.tidy, haccounts.dispatches⟩
  have hpending := haccounts.pending queue r hr
  exact ⟨hpending, congrArg List.length hpending⟩

/-- A queue with two messages is deleted; it is declared anew, is bound twice so that one message
reaches it either way, and the first of its messages is fetched. -/
theorem Story.messages_delivered_of_redeclared :
    ∃ (b : Broker Unit) (past : List Deed) (r : Queue), Story MemoryLog b past ∧
      b.live.topology.registry.queue? "q" = some r ∧
      b.live.mailboxes.pending "q" = [⟨"x", "a.b", ⟨#[4]⟩⟩, ⟨"", "q", ⟨#[5]⟩⟩] ∧
      b.live.mailboxes.pending "q" = backlog past "q" r := by
  let publish (exchange key : String) (byte : UInt8) : Task :=
    .operation .admin (.publish ⟨exchange, key, ⟨#[byte]⟩⟩)
  let declare : Task := .operation .admin (.declareQueue ⟨"q", true, false, false⟩ false)
  have hopen : (openOn {} 1 .empty ({} : MemoryLog)).1 = .ok _ := rfl
  have hs := (((((((((((((Story.opened rfl hopen).done
    (.operation .admin (.declareExchange ⟨"x", .topic, true, false⟩ false)) {}).done
    declare {}).done (publish "" "q" 1) {}).done (publish "" "q" 2) {}).done
    (.operation .admin (.deleteQueue "q" false false)) {}).done declare {}).done
    (.operation .admin (.bind ⟨"q", "x", "a.*"⟩)) {}).done
    (.operation .admin (.bind ⟨"q", "x", "#"⟩)) {}).done (publish "x" "a" 3) {}).done
    (publish "x" "a.b" 4) {}).done (.operation .admin (.fetch "q")) {}).done (publish "" "q" 5) {})
  refine ⟨_, _, _, hs, (Option.some_get ?_).symm, ?_,
    (hs.messages_delivered.1 _ _ (Option.some_get ?_).symm).1⟩
  all_goals decide +kernel

end Broker

/-- Whatever is asked of a server is part of the story of its broker. -/
theorem Server.story_serve {medium handle : Type} [Medium medium handle] {s : Server handle}
    {past : List Broker.Deed} (h : Broker.Story medium s.broker past) (m : medium)
    (q : Server.Request) :
    ∃ between, Broker.Story medium (s.serve m q).2.1.broker (between ++ past) :=
  h.moves (s.serve_moves m q)

end BrokerTopology
