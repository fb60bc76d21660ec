/-
  BrokerTopology.Proofs.TopologySteps — an operation is a run of
  elementary changes, and is recorded as they are.

  Decisions compute a changed topology and a list of durable changes
  side by side.  A `Step` ties the two: it is one elementary change,
  with its precondition, and with what it is recorded as.  Every
  decision comes to `Steps`, a run of them, and records exactly what
  they record; so whatever a step preserves, about the topology alone or
  about the topology and the log together, every operation preserves.

  A cascade is such a run because its removals have different names: to
  carry one out changes neither whether a later one may be carried out
  nor what that is recorded as.

  Main statements:
    * `Steps.wellFormed` — the invariant along a run.
    * `Steps.advances` — names once drawn are not drawn again.
    * `Cascade.Plans.steps` — a planned cascade is a run of removals.
    * `Operation.stepwise` — so is every operation.
-/
import BrokerTopology.Operation
import BrokerTopology.Proofs.CascadePlan

namespace BrokerTopology

/-! ## §1. Elementary changes -/

/-- The generator of the same broker, with at least as many counter values used up. -/
def NameGenerator.Advances (g g' : NameGenerator) : Prop :=
  g'.nonce = g.nonce ∧ g.counter ≤ g'.counter

theorem NameGenerator.Advances.refl (g : NameGenerator) : g.Advances g := ⟨rfl, Nat.le_refl _⟩

theorem NameGenerator.Advances.trans {g g' g'' : NameGenerator} (h : g.Advances g')
    (h' : g'.Advances g'') : g.Advances g'' :=
  ⟨h'.1.trans h.1, Nat.le_trans h.2 h'.2⟩

theorem NameGenerator.advances_draw (taken : String → Bool) (skips : Nat) (g : NameGenerator) :
    g.Advances (draw taken skips g).2 := by
  have hnext : g.Advances g.next.2 := ⟨rfl, Nat.le_succ _⟩
  induction skips generalizing g with
  | zero => exact hnext
  | succ skips ih =>
    unfold draw
    split
    next => exact hnext.trans (ih _ ⟨rfl, Nat.le_succ _⟩)
    next => exact hnext

namespace Topology

/-- One elementary change of a topology, and what it is recorded as. -/
inductive Step (t : Topology) : List DurableOp → Topology → Prop
  /-- Names are drawn for queues. -/
  | names {g : NameGenerator} (hg : t.registry.names.Advances g) : Step t [] (t.withGenerator g)
  | attach {name : String} (hq : t.registry.hasQueue name = true) :
      Step t [] { t with references := t.references.consumerAdded name }
  | detach {name : String} {n : Nat} {r : ReferenceCounts}
      (hr : t.references.consumerRemoved? name = some (n, r)) :
      Step t [] { t with references := r }
  | exchange {d : ExchangeDef} (hnew : t.registry.exchange? d.name = none) :
      Step t (if d.durable then [.declareExchange d.name d.kind d.autoDelete] else [])
        (t.addExchange d)
  | queue {d : QueueDef} {conn : ConnectionId} (hnew : t.registry.queue? d.name = none) :
      Step t (if d.persistent then [.declareQueue d.name d.autoDelete] else [])
        (t.addQueue d (LiveState.ownerOf conn d))
  | binding {b : Binding} (hq : t.registry.hasQueue b.queue = true)
      (hx : t.registry.hasExchange b.exchange = true) (hb : ¬ b ∈ t.bindings) :
      Step t (if t.isPersistent b then [.bind b] else []) (t.addBinding b)
  | removal {r : Removal} (hr : t.Removable r) : Step t (t.recordOf r).toList (t.remove r)

/-- Elementary changes one after the other, recorded in their order. -/
inductive Steps : Topology → List DurableOp → Topology → Prop
  | refl (t : Topology) : Steps t [] t
  | cons {t t' t'' : Topology} {ops ops' : List DurableOp} :
      Step t ops t' → Steps t' ops' t'' → Steps t (ops ++ ops') t''

theorem Step.wellFormed {t t' : Topology} {ops : List DurableOp} (h : t.WellFormed)
    (hstep : Step t ops t') : t'.WellFormed := by
  cases hstep with
  | names hg => exact h.withGenerator _
  | attach hq => exact h.attach hq
  | detach hr => exact h.detach hr
  | exchange hnew => exact h.addExchange hnew
  | queue hnew =>
    refine h.addQueue ?_
    unfold LiveState.ownerOf
    split
    next hexclusive => simp [hexclusive]
    next hexclusive => simp [hexclusive]
  | binding hq hx hb => exact h.addBinding hq hx hb
  | removal hr => exact h.remove hr

/-- What every step preserves, a run preserves. -/
theorem Steps.wellFormed {t t' : Topology} {ops : List DurableOp} (h : t.WellFormed)
    (hsteps : Steps t ops t') : t'.WellFormed := by
  induction hsteps with
  | refl t => exact h
  | cons hstep _ ih => exact ih (hstep.wellFormed h)

/-- Names once drawn are not drawn again. -/
theorem Step.advances {t t' : Topology} {ops : List DurableOp} (hstep : Step t ops t') :
    t.registry.names.Advances t'.registry.names := by
  cases hstep with
  | names hg => exact hg
  | attach hq => exact .refl _
  | detach hr => exact .refl _
  | exchange hnew => exact .refl _
  | queue hnew => exact .refl _
  | binding hq hx hb =>
    unfold addBinding
    split
    next => exact .refl _
    next => exact .refl _
  | removal hr =>
    rw [counters_remove.1]
    exact .refl _

theorem Steps.advances {t t' : Topology} {ops : List DurableOp} (hsteps : Steps t ops t') :
    t.registry.names.Advances t'.registry.names := by
  induction hsteps with
  | refl t => exact .refl _
  | cons hstep _ ih => exact hstep.advances.trans ih

theorem Steps.single {t t' : Topology} {ops : List DurableOp} (hstep : Step t ops t') :
    Steps t ops t' := by
  have hsteps := Steps.cons hstep (.refl t')
  rwa [List.append_nil] at hsteps

/-! ## §2. Removals of different names -/

/-- To remove one thing leaves it open whether another exchange may be removed, and what that
is recorded as. -/
theorem removable_remove {t : Topology} {r : Removal} {x : String} (hne : r ≠ .exchange x)
    (hx : t.Removable (.exchange x)) : (t.remove r).Removable (.exchange x) := by
  obtain ⟨record, hrecord, hbuiltin⟩ := hx
  exact ⟨record, by rw [exchange?_remove, if_neg hne, hrecord], hbuiltin⟩

theorem recordOf_remove {t : Topology} {r : Removal} {x : String} (hne : r ≠ .exchange x) :
    (t.remove r).recordOf (.exchange x) = t.recordOf (.exchange x) := by
  simp only [recordOf, exchange?_remove, if_neg hne]

/-- A removal and then some exchanges, all of them different, go one after the other. -/
theorem steps_of_removals {t : Topology} {removals : List Removal} (hnodup : removals.Nodup)
    (htail : ∀ r ∈ removals.tail, ∃ x, r = .exchange x)
    (hremovable : ∀ r ∈ removals, t.Removable r) :
    Steps t (removals.filterMap t.recordOf) (removals.foldl remove t) := by
  induction removals generalizing t with
  | nil => exact .refl t
  | cons r rest ih =>
    obtain ⟨hnotin, hnodup⟩ := List.nodup_cons.1 hnodup
    have hrest : Steps (t.remove r) (rest.filterMap (t.remove r).recordOf)
        (rest.foldl remove (t.remove r)) := by
      refine ih hnodup (fun r' hr' => htail r' (List.mem_of_mem_tail hr')) ?_
      intro r' hr'
      obtain ⟨x, rfl⟩ := htail r' hr'
      exact removable_remove (fun heq => hnotin (heq ▸ hr'))
        (hremovable _ (List.mem_cons_of_mem _ hr'))
    -- all but the first are exchanges, and what is recorded of one does not depend on another
    have hops : rest.filterMap (t.remove r).recordOf = rest.filterMap t.recordOf := by
      refine List.filterMap_congr ?_
      intro r' hr'
      obtain ⟨x, rfl⟩ := htail r' hr'
      exact recordOf_remove fun heq => hnotin (heq ▸ hr')
    have hsteps := Steps.cons (.removal (hremovable r List.mem_cons_self)) hrest
    rw [hops] at hsteps
    rw [List.filterMap_cons, List.foldl_cons]
    cases hrecord : t.recordOf r with
    | none =>
      rw [hrecord] at hsteps
      exact hsteps
    | some op =>
      rw [hrecord] at hsteps
      exact hsteps

end Topology

/-- A planned cascade is carried out step by step, also after consumers came or went. -/
theorem Cascade.Plans.steps {t : Topology} {r : Removal} {c : Cascade} (hc : Plans t r c)
    (h : t.WellFormed) (hr : t.Removable r) (references : ReferenceCounts) :
    Topology.Steps { t with references } c.ops
      (c.removals.foldl Topology.remove { t with references }) := by
  have hnodup := hc.nodup_removals
  obtain ⟨gone, -, hgone, hremovals⟩ := hc.removals_eq
  have hops : c.ops = c.removals.filterMap (Topology.recordOf { t with references }) := hc.ops_eq
  rw [hremovals] at hnodup
  rw [hops, hremovals]
  refine Topology.steps_of_removals hnodup ?_ ?_
  · intro r' hr'
    obtain ⟨x, -, rfl⟩ := List.mem_map.1 hr'
    exact ⟨x, rfl⟩
  · intro r' hr'
    rcases List.mem_cons.1 hr' with rfl | hr'
    · exact hr
    · obtain ⟨x, hx, rfl⟩ := List.mem_map.1 hr'
      have hstrands := h.strands_iff.1 ((hgone x).1 hx).1
      exact Topology.removable_of_autoDeletes hstrands.1

/-! ## §3. Decisions -/

/-- Of a computation in two parts that succeeds, both parts do. -/
theorem ok_of_bind {ε α β : Type} {x : Except ε α} {f : α → Except ε β} {b : β}
    (h : (x >>= f) = .ok b) : ∃ a, x = .ok a ∧ f a = .ok b := by
  cases x with
  | error e => cases h
  | ok a => exact ⟨a, rfl, h⟩

theorem ok_of_map {ε α β : Type} {f : α → β} {x : Except ε α} {b : β} (h : x.map f = .ok b) :
    ∃ a, x = .ok a ∧ f a = b := by
  cases x with
  | error e => cases h
  | ok a =>
    injection h with h
    exact ⟨a, rfl, h⟩

theorem ok_of_isOk {ε α : Type} {x : Except ε α} (h : x.isOk = true) : ∃ a, x = .ok a := by
  cases x with
  | error e => cases h
  | ok a => exact ⟨a, rfl⟩

theorem error_of_map {ε α β : Type} {f : α → β} {x : Except ε α} {e : ε}
    (h : x.map f = .error e) : x = .error e := by
  cases x with
  | error e' =>
    replace h : (.error e' : Except ε β) = .error e := h
    injection h with h
    rw [h]
  | ok a => cases h

/-- A decision that comes to a run of elementary changes, and records what they record. -/
def Decision.Stepwise {α : Type} (d : Decision α) : Prop :=
  ∀ s change, s.topology.WellFormed → d s = .ok change →
    Topology.Steps s.topology change.ops change.live.topology

theorem Decision.Stepwise.map {α β : Type} {d : Decision α} (hd : d.Stepwise) (f : α → β) :
    (d.map f).Stepwise := by
  intro s change h hchange
  obtain ⟨inner, hinner, rfl⟩ := ok_of_map hchange
  exact hd s inner h hinner

/-- A decision that leaves the topology as it is, and records nothing. -/
def Decision.Passing {α : Type} (d : Decision α) : Prop :=
  ∀ s change, d s = .ok change → change.ops = [] ∧ change.live.topology = s.topology

theorem Decision.Passing.stepwise {α : Type} {d : Decision α} (hd : d.Passing) : d.Stepwise := by
  intro s change _ hchange
  obtain ⟨hops, htopology⟩ := hd s change hchange
  rw [hops, htopology]
  exact .refl _

namespace LiveState

open BrokerTopology.Topology

theorem queueFor_ok {s : LiveState} {conn : ConnectionId} {name : String} {q : Queue}
    (h : s.queueFor conn name = .ok q) : s.topology.registry.queue? name = some q := by
  unfold queueFor at h
  split at h
  next => cases h
  next q' hq' =>
    split at h
    next =>
      injection h with h
      rw [hq', h]
    next => cases h

/-- Whoever gets hold of a queue may use it. -/
theorem accessibleBy_of_queueFor {s : LiveState} {conn : ConnectionId} {name : String} {q : Queue}
    (h : s.queueFor conn name = .ok q) : q.accessibleBy conn = true := by
  unfold queueFor at h
  split at h
  next => cases h
  next =>
    split at h
    next haccess =>
      injection h with h
      rwa [← h]
    next => cases h

theorem exchangeOf_ok {s : LiveState} {name : String} {x : Exchange}
    (h : s.exchangeOf name = .ok x) : s.topology.registry.exchange? name = some x := by
  unfold exchangeOf at h
  split at h
  next => cases h
  next x' hx' =>
    injection h with h
    rw [hx', h]

/-- What the declaration of an exchange, when it succeeds, comes to. -/
theorem declareExchange_ok {d : ExchangeDef} {passive : Bool} {s : LiveState}
    {change : Change Unit} (h : declareExchange d passive s = .ok change) :
    change = s.keep () ∨ s.topology.registry.exchange? d.name = none ∧
      change =
        { answer := ()
          ops := if d.durable then [.declareExchange d.name d.kind d.autoDelete] else []
          live := s.withTopology (s.topology.addExchange d) } := by
  have hkeep : ∀ {c : Change Unit}, (.ok (s.keep ()) : Except Refusal (Change Unit)) = .ok c →
      c = s.keep () := fun hc => by injection hc with hc; exact hc.symm
  obtain ⟨-, -, h⟩ := ok_of_bind h
  split at h
  next =>
    split at h
    next => exact Or.inl (hkeep h)
    next => cases h
  next =>
    split at h
    next =>
      split at h
      next => exact Or.inl (hkeep h)
      next =>
        split at h
        next => cases h
        next => exact Or.inl (hkeep h)
    next hnew =>
      split at h
      next => cases h
      next =>
        split at h
        next => cases h
        next =>
          injection h with h
          exact Or.inr ⟨hnew, h.symm⟩

theorem declareExchange_stepwise (d : ExchangeDef) (passive : Bool) :
    (declareExchange d passive).Stepwise := by
  intro s change h hchange
  obtain rfl | ⟨hnew, rfl⟩ := declareExchange_ok hchange
  · exact .refl _
  · exact .single (.exchange hnew)

/-- What the declaration of a queue whose name is settled, when it succeeds, comes to. -/
theorem declareNamedQueue_ok {conn : ConnectionId} {d : QueueDef} {passive : Bool} {s : LiveState}
    {change : Change QueueDeclared} (h : declareNamedQueue conn d passive s = .ok change) :
    change = s.keep (s.declared d.name) ∨ s.topology.registry.queue? d.name = none ∧
      let live := s.withTopology (s.topology.addQueue d (ownerOf conn d))
      change =
        { answer := live.declared d.name
          ops := if d.persistent then [.declareQueue d.name d.autoDelete] else []
          live } := by
  have hkeep : ∀ {c : Change QueueDeclared},
      (.ok (s.keep (s.declared d.name)) : Except Refusal (Change QueueDeclared)) = .ok c →
        c = s.keep (s.declared d.name) := fun hc => by injection hc with hc; exact hc.symm
  unfold declareNamedQueue at h
  split at h
  next =>
    split at h
    next => cases h
    next =>
      split at h
      next => exact Or.inl (hkeep h)
      next =>
        split at h
        next => cases h
        next => exact Or.inl (hkeep h)
  next hnew =>
    split at h
    next => cases h
    next =>
      injection h with h
      exact Or.inr ⟨hnew, h.symm⟩

theorem declareNamedQueue_stepwise (conn : ConnectionId) (d : QueueDef) (passive : Bool) :
    (declareNamedQueue conn d passive).Stepwise := by
  intro s change h hchange
  obtain rfl | ⟨hnew, rfl⟩ := declareNamedQueue_ok hchange
  · exact .refl _
  · exact .single (.queue hnew)

/-- To declare a queue is to declare one whose name is settled, if need be by drawing it. -/
theorem declareQueue_ok {conn : ConnectionId} {d : QueueDef} {passive : Bool} {s : LiveState}
    {change : Change QueueDeclared} (h : declareQueue conn d passive s = .ok change) :
    ∃ d' g, s.topology.registry.names.Advances g ∧
      (d.name ≠ "" → d' = d ∧ g = s.topology.registry.names) ∧
      declareNamedQueue conn d' passive (s.withTopology (s.topology.withGenerator g)) =
        .ok change := by
  unfold declareQueue at h
  split at h
  next hname =>
    split at h
    next => cases h
    next =>
      exact ⟨_, _, NameGenerator.advances_draw s.topology.registry.hasQueue
        s.topology.registry.queues.size s.topology.registry.names, fun hne => absurd hname hne, h⟩
  next =>
    obtain ⟨-, -, h⟩ := ok_of_bind h
    split at h
    next => cases h
    next => exact ⟨d, _, .refl _, fun _ => ⟨rfl, rfl⟩, h⟩

/-- To draw a name is a step, whether the declaration that follows is one or not. -/
theorem declareQueue_stepwise (conn : ConnectionId) (d : QueueDef) (passive : Bool) :
    (declareQueue conn d passive).Stepwise := by
  intro s change h hchange
  obtain ⟨d', g, hg, -, hchange⟩ := declareQueue_ok hchange
  have hdrawn : Step s.topology [] (s.topology.withGenerator g) := .names hg
  exact .cons hdrawn
    (declareNamedQueue_stepwise conn d' passive _ change (hdrawn.wellFormed h) hchange)

/-- What binding, when it succeeds, comes to. -/
theorem bind_ok {conn : ConnectionId} {b : Binding} {s : LiveState} {change : Change Unit}
    (h : bind conn b s = .ok change) :
    change = s.keep () ∨ s.topology.registry.hasQueue b.queue = true ∧
      s.topology.registry.hasExchange b.exchange = true ∧ ¬ b ∈ s.topology.bindings ∧
      change =
        { answer := ()
          ops := if s.topology.isPersistent b then [.bind b] else []
          live := s.withTopology (s.topology.addBinding b) } := by
  obtain ⟨-, -, h⟩ := ok_of_bind h
  obtain ⟨q, hq, h⟩ := ok_of_bind h
  obtain ⟨x, hx, h⟩ := ok_of_bind h
  split at h
  next =>
    injection h with h
    exact Or.inl h.symm
  next hb =>
    injection h with h
    exact Or.inr ⟨Registry.hasQueue_iff.2 ⟨q, queueFor_ok hq⟩,
      Registry.hasExchange_iff.2 ⟨x, exchangeOf_ok hx⟩, hb, h.symm⟩

theorem bind_stepwise (conn : ConnectionId) (b : Binding) : (bind conn b).Stepwise := by
  intro s change h hchange
  obtain rfl | ⟨hqueue, hexchange, hb, rfl⟩ := bind_ok hchange
  · exact .refl _
  · exact .single (.binding hqueue hexchange hb)

/-- What unbinding, when it succeeds, comes to. -/
theorem unbind_ok {conn : ConnectionId} {b : Binding} {s : LiveState} {change : Change Unit}
    (h : unbind conn b s = .ok change) :
    b ∈ s.topology.bindings ∧
      change = s.carryOut (Cascade.removingBinding s.topology b) () := by
  unfold unbind at h
  simp only at h
  split at h
  next =>
    obtain ⟨_, hrefused, -⟩ := ok_of_bind h
    cases hrefused
  next =>
    obtain ⟨-, -, h⟩ := ok_of_bind h
    obtain ⟨-, -, h⟩ := ok_of_bind h
    split at h
    next hb =>
      injection h with h
      exact ⟨hb, h.symm⟩
    next => cases h

/-- What the deletion of a queue, when it succeeds, comes to. -/
theorem deleteQueue_ok {conn : ConnectionId} {name : String} {ifUnused ifEmpty : Bool}
    {s : LiveState} {change : Change Nat}
    (h : deleteQueue conn name ifUnused ifEmpty s = .ok change) :
    s.topology.registry.hasQueue name = true ∧
      change = s.carryOut (Cascade.removingQueue s.topology name) (s.mailboxes.count name) := by
  obtain ⟨q, hq, h⟩ := ok_of_bind h
  simp only at h
  split at h
  next => cases h
  next =>
    split at h
    next => cases h
    next =>
      injection h with h
      exact ⟨Registry.hasQueue_iff.2 ⟨q, queueFor_ok hq⟩, h.symm⟩

/-- What the deletion of an exchange, when it succeeds, comes to. -/
theorem deleteExchange_ok {name : String} {ifUnused : Bool} {s : LiveState} {change : Change Unit}
    (h : deleteExchange name ifUnused s = .ok change) :
    s.topology.Removable (.exchange name) ∧
      change = s.carryOut (Cascade.removingExchange s.topology name) () := by
  obtain ⟨x, hx, h⟩ := ok_of_bind h
  simp only at h
  split at h
  next => cases h
  next hbuiltin =>
    split at h
    next => cases h
    next =>
      injection h with h
      exact ⟨⟨x, exchangeOf_ok hx, Bool.eq_false_iff.2 hbuiltin⟩, h.symm⟩

/-- A consumer that was counted is counted off. -/
theorem dropConsumer_of_removed {s : LiveState} {name : String} {n : Nat}
    {references : ReferenceCounts}
    (h : s.topology.references.consumerRemoved? name = some (n, references)) :
    s.dropConsumer name = s.withTopology { s.topology with references } := by
  unfold dropConsumer
  rw [h]

/-- The last consumer of an auto-delete queue takes it along; any other, or a consumer of
another queue, just leaves. -/
theorem detachConsumer_ok {name : String} {incarnation : Option Nat} {s : LiveState}
    {change : Change Nat} (h : detachConsumer name incarnation s = .ok change) :
    ∃ q, s.topology.registry.queue? name = some q ∧
      (s.topology.references.consumersOf name = 0 ∧ change = s.keep 0 ∨
        ∃ remaining references,
          s.topology.references.consumerRemoved? name = some (remaining, references) ∧
          let live := s.withTopology { s.topology with references }
          change =
            if remaining = 0 && q.definition.autoDelete then
              live.carryOut (Cascade.removingQueue s.topology name) remaining
            else { answer := remaining, live }) := by
  unfold detachConsumer at h
  split at h
  next => cases h
  next q hq =>
    refine ⟨q, hq, ?_⟩
    split at h
    next => cases h
    next =>
      split at h
      next hzero =>
        injection h with h
        exact Or.inl ⟨hzero, h.symm⟩
      next remaining hcount =>
        injection h with h
        have hremoved : s.topology.references.consumerRemoved? name = some (remaining,
            { s.topology.references with
              consumers := s.topology.references.consumers.set name remaining }) := by
          unfold ReferenceCounts.consumerRemoved?
          rw [hcount]
        refine Or.inr ⟨remaining, _, hremoved, ?_⟩
        -- the count is looked up again when the consumer is dropped, and is still the same
        rw [← h, dropConsumer_of_removed hremoved]
        split
        next => rfl
        next => rfl

/-- So the last one does: it is counted off, and the queue goes. -/
theorem detachConsumer_last {name : String} {incarnation : Option Nat} {s : LiveState}
    {change : Change Nat} (hlast : s.topology.references.consumersOf name = 1)
    (hauto : (s.topology.registry.queue? name).any (fun q => q.definition.autoDelete) = true)
    (h : detachConsumer name incarnation s = .ok change) :
    s.topology.registry.hasQueue name = true ∧
      ∃ references, s.topology.references.consumerRemoved? name = some (0, references) ∧
        change = (s.withTopology { s.topology with references }).carryOut
          (Cascade.removingQueue s.topology name) 0 := by
  obtain ⟨q, hq, ⟨hnone, -⟩ | ⟨remaining, references, hremoved, rfl⟩⟩ := detachConsumer_ok h
  · rw [hlast] at hnone
    cases hnone
  · obtain ⟨hcount, -, -⟩ := ReferenceCounts.consumersOf_consumerRemoved? hremoved name
    rw [hlast] at hcount
    obtain rfl : remaining = 0 := by omega
    rw [hq] at hauto
    have hauto : q.definition.autoDelete = true := hauto
    exact ⟨Registry.hasQueue_iff.2 ⟨q, hq⟩, references, hremoved, if_pos (by rw [hauto]; rfl)⟩

theorem unbind_stepwise (conn : ConnectionId) (b : Binding) : (unbind conn b).Stepwise := by
  intro s change h hchange
  obtain ⟨hb, rfl⟩ := unbind_ok hchange
  exact (Cascade.plans_removingBinding h hb).steps h hb s.topology.references

theorem deleteQueue_stepwise (conn : ConnectionId) (name : String) (ifUnused ifEmpty : Bool) :
    (deleteQueue conn name ifUnused ifEmpty).Stepwise := by
  intro s change h hchange
  obtain ⟨hq, rfl⟩ := deleteQueue_ok hchange
  exact (Cascade.plans_removingQueue h hq).steps h hq s.topology.references

theorem deleteExchange_stepwise (name : String) (ifUnused : Bool) :
    (deleteExchange name ifUnused).Stepwise := by
  intro s change h hchange
  obtain ⟨hx, rfl⟩ := deleteExchange_ok hchange
  exact (Cascade.plans_removingExchange h hx).steps h hx s.topology.references

theorem detachConsumer_stepwise (name : String) (incarnation : Option Nat) :
    (detachConsumer name incarnation).Stepwise := by
  intro s change h hchange
  obtain ⟨q, hq, ⟨-, rfl⟩ | ⟨remaining, references, hremoved, rfl⟩⟩ := detachConsumer_ok hchange
  · exact .refl _
  · have hdetach : Step s.topology [] { s.topology with references } := .detach hremoved
    split
    next =>
      have hq := Registry.hasQueue_iff.2 ⟨q, hq⟩
      exact .cons hdetach ((Cascade.plans_removingQueue h hq).steps h hq references)
    next => exact .single hdetach

/-- What a consumer's joining, when it succeeds, comes to. -/
theorem attachConsumer_ok {conn : ConnectionId} {name : String} {s : LiveState}
    {change : Change (Nat × Nat)} (h : attachConsumer conn name s = .ok change) :
    ∃ q, s.topology.registry.queue? name = some q ∧
      let references := s.topology.references.consumerAdded name
      change =
        { answer := (references.consumersOf name, q.incarnation)
          live := s.withTopology { s.topology with references } } := by
  obtain ⟨q, hq, h⟩ := ok_of_bind h
  injection h with h
  exact ⟨q, queueFor_ok hq, h.symm⟩

theorem attachConsumer_stepwise (conn : ConnectionId) (name : String) :
    (attachConsumer conn name).Stepwise := by
  intro s change h hchange
  obtain ⟨q, hq, rfl⟩ := attachConsumer_ok hchange
  exact .single (.attach (Registry.hasQueue_iff.2 ⟨q, hq⟩))

/-- Messages pass through a topology and leave it as it is. -/
theorem traffic_passing {α β : Type} (check : LiveState → Except Refusal β)
    (pass : LiveState → β → α × Mailboxes) {d : Decision α}
    (hd : ∀ s, d s = do
      let found ← check s
      .ok { answer := (pass s found).1, live := { s with mailboxes := (pass s found).2 } }) :
    d.Passing := by
  intro s change hchange
  rw [hd] at hchange
  obtain ⟨found, -, hchange⟩ := ok_of_bind hchange
  injection hchange with hchange
  subst hchange
  exact ⟨rfl, rfl⟩

theorem purge_passing (conn : ConnectionId) (queue : String) : (purge conn queue).Passing :=
  traffic_passing (fun s => s.queueFor conn queue)
    (fun s _ => (s.mailboxes.count queue, s.mailboxes.clear queue)) fun _ => rfl

theorem publish_passing (matcher : Matcher) (message : Message) :
    (publish matcher message).Passing :=
  traffic_passing (fun s => s.exchangeOf message.exchange)
    (fun s x =>
      let queues := s.destinations matcher x message.routingKey
      (queues.size, s.mailboxes.deliver queues message)) fun _ => rfl

theorem fetch_passing (conn : ConnectionId) (queue : String) : (fetch conn queue).Passing :=
  traffic_passing (fun s => s.queueFor conn queue) (fun s _ => s.mailboxes.pop queue) fun _ => rfl

theorem route_passing (matcher : Matcher) (exchange key : String) :
    (route matcher exchange key).Passing :=
  traffic_passing (fun s => s.exchangeOf exchange)
    (fun s x => (s.destinations matcher x key, s.mailboxes)) fun _ => rfl

end LiveState

/-- Every operation is a run of elementary changes. -/
theorem Operation.stepwise (matcher : Matcher) (conn : ConnectionId) (op : Operation) :
    (op.decide matcher conn).Stepwise := by
  cases op with
  | declareExchange d passive =>
    exact (LiveState.declareExchange_stepwise d passive).map fun _ => Answer.done
  | declareQueue d passive =>
    exact (LiveState.declareQueue_stepwise conn d passive).map Answer.declared
  | bind b => exact (LiveState.bind_stepwise conn b).map fun _ => Answer.done
  | unbind b => exact (LiveState.unbind_stepwise conn b).map fun _ => Answer.done
  | deleteQueue name ifUnused ifEmpty =>
    exact (LiveState.deleteQueue_stepwise conn name ifUnused ifEmpty).map Answer.count
  | deleteExchange name ifUnused =>
    exact (LiveState.deleteExchange_stepwise name ifUnused).map fun _ => Answer.done
  | purge queue => exact (LiveState.purge_passing conn queue).stepwise.map Answer.count
  | publish message => exact (LiveState.publish_passing matcher message).stepwise.map Answer.count
  | fetch queue => exact (LiveState.fetch_passing conn queue).stepwise.map Answer.message
  | route exchange key =>
    exact (LiveState.route_passing matcher exchange key).stepwise.map Answer.queues
  | attachConsumer queue =>
    exact (LiveState.attachConsumer_stepwise conn queue).map fun r => Answer.count r.1
  | detachConsumer queue => exact (LiveState.detachConsumer_stepwise queue none).map Answer.count

end BrokerTopology
