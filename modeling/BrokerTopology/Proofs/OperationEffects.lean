/-
  BrokerTopology.Proofs.OperationEffects — what an operation that
  succeeds has made of what is in memory.

  `Operation.Effect` lists the outcomes, one constructor for each, with
  what was found before it: a name is drawn, or one entity or binding is
  taken in under a name that was free, or one thing is removed with what
  goes along, or messages are handled, or a consumer comes or goes.
  Everything that an operation must leave alone is read off this list.

  An operation on a queue has looked the queue up first, on behalf of the
  connection that it came on.

  Main statements:
    * `Operation.effect` — every operation that succeeds has one of these
      effects.
    * `LiveState.detachConsumer_effect` — so has a consumer that leaves the
      queue that it joined.
    * `Operation.queueFor_of_ok` — an operation on a queue succeeds only
      for those who may use it.
-/
import BrokerTopology.Proofs.ExactRemoval

namespace BrokerTopology

namespace Operation

/-! ## §1. The list -/

/-- Whether an operation handles messages. -/
def handlesMessages : Operation → Bool
  | publish _ | fetch _ | purge _ => true
  | _ => false

/-- Whether an operation counts a consumer that is on no channel. -/
def countsByHand : Operation → Bool
  | attachConsumer _ | detachConsumer _ => true
  | _ => false

/-- What an operation on a connection, when it succeeds, makes of what is in memory. -/
inductive Effect (matcher : Matcher) (conn : ConnectionId) (s : LiveState) :
    Operation → LiveState → Prop
  /-- Nothing at all. -/
  | same {op : Operation} (hmessages : op.handlesMessages = false)
      (hcounts : op.countsByHand = false) : Effect matcher conn s op s
  /-- A name is drawn, and nothing else. -/
  | names {d : QueueDef} {passive : Bool} {g : NameGenerator}
      (hg : s.topology.registry.names.Advances g) (hname : d.name = "") :
      Effect matcher conn s (.declareQueue d passive)
        (s.withTopology (s.topology.withGenerator g))
  | exchange {d : ExchangeDef} {passive : Bool}
      (hnew : s.topology.registry.exchange? d.name = none) :
      Effect matcher conn s (.declareExchange d passive)
        (s.withTopology (s.topology.addExchange d))
  | queue {d d' : QueueDef} {passive : Bool} {g : NameGenerator}
      (hg : s.topology.registry.names.Advances g)
      (hname : d.name ≠ "" → d' = d ∧ g = s.topology.registry.names)
      (hnew : s.topology.registry.queue? d'.name = none) :
      Effect matcher conn s (.declareQueue d passive)
        (s.withTopology
          ((s.topology.withGenerator g).addQueue d' (LiveState.ownerOf conn d')))
  | binding {b : Binding} (hq : s.topology.registry.hasQueue b.queue = true)
      (hx : s.topology.registry.hasExchange b.exchange = true) (hb : ¬ b ∈ s.topology.bindings) :
      Effect matcher conn s (.bind b) (s.withTopology (s.topology.addBinding b))
  | removed {op : Operation} {r : Removal} {s' : LiveState}
      (hr : op.removal? s.topology = some r) (hs' : s'.Without s r) : Effect matcher conn s op s'
  | published {message : Message} {x : Exchange}
      (hx : s.topology.registry.exchange? message.exchange = some x) :
      Effect matcher conn s (.publish message)
        { s with
          mailboxes :=
            s.mailboxes.deliver (s.destinations matcher x message.routingKey) message }
  | fetched {queue : String} (hq : s.topology.registry.hasQueue queue = true) :
      Effect matcher conn s (.fetch queue) { s with mailboxes := (s.mailboxes.pop queue).2 }
  | purged {queue : String} (hq : s.topology.registry.hasQueue queue = true) :
      Effect matcher conn s (.purge queue) { s with mailboxes := s.mailboxes.clear queue }
  | joined {queue : String} (hq : s.topology.registry.hasQueue queue = true) :
      Effect matcher conn s (.attachConsumer queue)
        (s.withTopology
          { s.topology with references := s.topology.references.consumerAdded queue })
  | nobodyLeft {queue : String} (hnone : s.topology.references.consumersOf queue = 0) :
      Effect matcher conn s (.detachConsumer queue) s
  | left {queue : String} {n : Nat} {references : ReferenceCounts}
      (hr : s.topology.references.consumerRemoved? queue = some (n, references))
      (hstays : (detachConsumer queue).removal? s.topology = none) :
      Effect matcher conn s (.detachConsumer queue)
        (s.withTopology { s.topology with references })

end Operation

/-- Whether a request counts a consumer that is on no channel; no channel offers that. -/
def Server.Request.countsByHand : Server.Request → Bool
  | operation op | onChannel _ _ op => op.countsByHand
  | _ => false

/-! ## §2. Every operation has an effect of the list -/

namespace LiveState

open Operation

variable {matcher : Matcher} {conn : ConnectionId} {s : LiveState}

theorem declareExchange_effect {d : ExchangeDef} {passive : Bool} {change : Change Unit}
    (hd : declareExchange d passive s = .ok change) :
    Effect matcher conn s (.declareExchange d passive) change.live := by
  obtain rfl | ⟨hnew, rfl⟩ := declareExchange_ok hd
  · exact .same rfl rfl
  · exact .exchange hnew

theorem declareQueue_effect {d : QueueDef} {passive : Bool} {change : Change QueueDeclared}
    (hd : declareQueue conn d passive s = .ok change) :
    Effect matcher conn s (.declareQueue d passive) change.live := by
  obtain ⟨d', g, hg, hname, hd⟩ := declareQueue_ok hd
  obtain rfl | ⟨hnew, rfl⟩ := declareNamedQueue_ok hd
  · by_cases hempty : d.name = ""
    · exact .names hg hempty
    · obtain ⟨-, rfl⟩ := hname hempty
      exact .same rfl rfl
  · exact .queue hg hname hnew

theorem bind_effect {b : Binding} {change : Change Unit} (hd : bind conn b s = .ok change) :
    Effect matcher conn s (.bind b) change.live := by
  obtain rfl | ⟨hq, hx, hb, rfl⟩ := bind_ok hd
  · exact .same rfl rfl
  · exact .binding hq hx hb

theorem attachConsumer_effect (matcher : Matcher) {queue : String} {change : Change (Nat × Nat)}
    (hd : attachConsumer conn queue s = .ok change) :
    Effect matcher conn s (.attachConsumer queue) change.live := by
  obtain ⟨q, hq, rfl⟩ := attachConsumer_ok hd
  exact .joined (Registry.hasQueue_iff.2 ⟨q, hq⟩)

theorem deleteQueue_effect (matcher : Matcher) (h : s.topology.WellFormed) {name : String}
    {ifUnused ifEmpty : Bool} {change : Change Nat}
    (hd : deleteQueue conn name ifUnused ifEmpty s = .ok change) :
    Effect matcher conn s (.deleteQueue name ifUnused ifEmpty) change.live :=
  .removed rfl (deleteQueue_without h hd).1

/-- A consumer that leaves, leaves the queue that it joined. -/
theorem detachConsumer_effect (matcher : Matcher) (conn : ConnectionId)
    (h : s.topology.WellFormed) {queue : String} {incarnation : Option Nat} {change : Change Nat}
    (hd : detachConsumer queue incarnation s = .ok change) :
    (∃ q, s.topology.registry.queue? queue = some q ∧ ∀ n ∈ incarnation, n = q.incarnation) ∧
      Effect matcher conn s (.detachConsumer queue) change.live := by
  have hjoined : ∀ q, s.topology.registry.queue? queue = some q →
      ∀ n ∈ incarnation, n = q.incarnation := by
    intro q hq n hn
    obtain rfl : incarnation = some n := hn
    unfold detachConsumer at hd
    rw [hq] at hd
    by_contra hne
    have hrefused : (some n).any (· != q.incarnation) = true := by simpa using hne
    simp only [hrefused, ↓reduceIte] at hd
    cases hd
  obtain ⟨q, hq, hcases⟩ := detachConsumer_ok hd
  refine ⟨⟨q, hq, hjoined q hq⟩, ?_⟩
  rcases hcases with ⟨hnone, rfl⟩ | ⟨remaining, references, hr, hafter⟩
  · exact .nobodyLeft hnone
  · by_cases hlast : remaining = 0 ∧ q.definition.autoDelete = true
    · obtain ⟨rfl, hauto⟩ := hlast
      have hcount := (ReferenceCounts.consumersOf_consumerRemoved? hr queue).1
      have hauto : (s.topology.registry.queue? queue).any (fun q => q.definition.autoDelete) =
          true := by
        rw [hq]
        exact hauto
      refine .removed ?_ (detachConsumer_without h hcount hauto hd)
      simp [removal?, hcount, hauto]
    · have hcount := (ReferenceCounts.consumersOf_consumerRemoved? hr queue).1
      rw [hafter, if_neg (by simpa using hlast)]
      refine .left hr ?_
      simpa [removal?, hcount, hq] using hlast

theorem publish_ok {message : Message} {change : Change Nat}
    (hd : publish matcher message s = .ok change) :
    ∃ x, s.topology.registry.exchange? message.exchange = some x ∧
      let queues := s.destinations matcher x message.routingKey
      change =
        { answer := queues.size
          live := { s with mailboxes := s.mailboxes.deliver queues message } } := by
  obtain ⟨x, hx, hd⟩ := ok_of_bind hd
  injection hd with hd
  exact ⟨x, exchangeOf_ok hx, hd.symm⟩

theorem fetch_ok {queue : String} {change : Change (Option Message)}
    (hd : fetch conn queue s = .ok change) :
    s.topology.registry.hasQueue queue = true ∧
      change =
        { answer := (s.mailboxes.pop queue).1
          live := { s with mailboxes := (s.mailboxes.pop queue).2 } } := by
  obtain ⟨q, hq, hd⟩ := ok_of_bind hd
  injection hd with hd
  exact ⟨Registry.hasQueue_iff.2 ⟨q, queueFor_ok hq⟩, hd.symm⟩

theorem purge_ok {queue : String} {change : Change Nat} (hd : purge conn queue s = .ok change) :
    s.topology.registry.hasQueue queue = true ∧
      change =
        { answer := s.mailboxes.count queue
          live := { s with mailboxes := s.mailboxes.clear queue } } := by
  obtain ⟨q, hq, hd⟩ := ok_of_bind hd
  injection hd with hd
  exact ⟨Registry.hasQueue_iff.2 ⟨q, queueFor_ok hq⟩, hd.symm⟩

end LiveState

namespace Operation

open LiveState

/-- Every operation that succeeds has one of these effects. -/
theorem effect {matcher : Matcher} {conn : ConnectionId} {op : Operation} {s : LiveState}
    {change : Change Answer} (h : s.topology.WellFormed)
    (hd : op.decide matcher conn s = .ok change) : Effect matcher conn s op change.live := by
  cases op with
  | declareExchange d passive =>
    obtain ⟨inner, hinner, rfl⟩ := ok_of_map hd
    exact declareExchange_effect hinner
  | declareQueue d passive =>
    obtain ⟨inner, hinner, rfl⟩ := ok_of_map hd
    exact declareQueue_effect hinner
  | bind b =>
    obtain ⟨inner, hinner, rfl⟩ := ok_of_map hd
    exact bind_effect hinner
  | unbind b => exact .removed rfl (decide_without h rfl hd).1
  | deleteQueue name ifUnused ifEmpty => exact .removed rfl (decide_without h rfl hd).1
  | deleteExchange name ifUnused => exact .removed rfl (decide_without h rfl hd).1
  | purge queue =>
    obtain ⟨inner, hinner, rfl⟩ := ok_of_map hd
    obtain ⟨hq, rfl⟩ := purge_ok hinner
    exact .purged hq
  | publish message =>
    obtain ⟨inner, hinner, rfl⟩ := ok_of_map hd
    obtain ⟨x, hx, rfl⟩ := publish_ok hinner
    exact .published hx
  | fetch queue =>
    obtain ⟨inner, hinner, rfl⟩ := ok_of_map hd
    obtain ⟨hq, rfl⟩ := fetch_ok hinner
    exact .fetched hq
  | route exchange key =>
    rw [decide_route_live hd]
    exact .same rfl rfl
  | attachConsumer queue =>
    obtain ⟨inner, hinner, rfl⟩ := ok_of_map hd
    exact attachConsumer_effect matcher hinner
  | detachConsumer queue =>
    obtain ⟨inner, hinner, rfl⟩ := ok_of_map hd
    exact (detachConsumer_effect matcher conn h hinner).2

/-! ## §3. Who may use a queue -/

/-- The queue that an operation is on, and that only those may name who may use it. -/
def queue? : Operation → Option String
  | bind b | unbind b => some b.queue
  | deleteQueue name .. | purge name | fetch name | attachConsumer name => some name
  | _ => none

/-- An operation on a queue succeeds only for those who may use it. -/
theorem queueFor_of_ok {matcher : Matcher} {conn : ConnectionId} {op : Operation} {s : LiveState}
    {change : Change Answer} {name : String} (hop : op.queue? = some name)
    (hd : op.decide matcher conn s = .ok change) : ∃ q, s.queueFor conn name = .ok q := by
  cases op with
  | bind b =>
    injection hop with hop
    subst hop
    obtain ⟨inner, hinner, -⟩ := ok_of_map hd
    obtain ⟨-, -, hinner⟩ := ok_of_bind hinner
    obtain ⟨q, hq, -⟩ := ok_of_bind hinner
    exact ⟨q, hq⟩
  | unbind b =>
    injection hop with hop
    subst hop
    obtain ⟨inner, hinner, -⟩ := ok_of_map hd
    unfold LiveState.unbind at hinner
    simp only at hinner
    split at hinner
    next =>
      obtain ⟨_, hrefused, -⟩ := ok_of_bind hinner
      cases hrefused
    next =>
      obtain ⟨q, hq, -⟩ := ok_of_bind hinner
      exact ⟨q, hq⟩
  | deleteQueue | purge | fetch | attachConsumer =>
    injection hop with hop
    subst hop
    obtain ⟨inner, hinner, -⟩ := ok_of_map hd
    obtain ⟨q, hq, -⟩ := ok_of_bind hinner
    exact ⟨q, hq⟩
  | _ => cases hop

end Operation

end BrokerTopology
