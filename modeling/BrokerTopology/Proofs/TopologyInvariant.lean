/-
  BrokerTopology.Proofs.TopologyInvariant — what holds of the topology
  of every running broker.

  The registry, the binding table and the counts are three structures
  that change by separate statements.  `WellFormed` says how they hang
  together: bindings join entities that exist, the count of an exchange
  is the number of its bindings, nobody consumes from a queue that is
  not there, records stand under their own names, and the built-in
  exchanges are as they were at the start.

  A fresh broker has it, and it is kept when an exchange, a queue or a
  binding is taken in and when a consumer comes or goes.  What is removed
  is another matter, since bindings and exchanges go along.

  Main statements:
    * `WellFormed.addExchange`, `WellFormed.addQueue`,
      `WellFormed.addBinding`, `WellFormed.attach`, `WellFormed.detach` —
      the invariant, change by change.
    * `wellFormed_initial` — a fresh broker has it.
-/
import BrokerTopology.Cascade
import BrokerTopology.Proofs.BindingIndexes

namespace BrokerTopology

/-! ## §1. Look-ups and counts -/

namespace Registry

theorem hasQueue_iff {r : Registry} {name : String} :
    r.hasQueue name = true ↔ ∃ q, r.queue? name = some q := by
  rw [hasQueue, queue?, Std.ExtTreeMap.contains_eq_isSome_getElem?, Option.isSome_iff_exists]

theorem hasExchange_iff {r : Registry} {name : String} :
    r.hasExchange name = true ↔ ∃ x, r.exchange? name = some x := by
  rw [hasExchange, exchange?, Std.ExtTreeMap.contains_eq_isSome_getElem?,
    Option.isSome_iff_exists]

theorem hasQueue_eq_false_iff {r : Registry} {name : String} :
    r.hasQueue name = false ↔ r.queue? name = none := by
  rw [hasQueue, queue?, Std.ExtTreeMap.contains_eq_isSome_getElem?, Option.isSome_eq_false_iff,
    Option.isNone_iff_eq_none]

end Registry

namespace ReferenceCounts

/-- A consumer that leaves was counted, and no other queue's count changes. -/
theorem consumersOf_consumerRemoved? {r r' : ReferenceCounts} {queue : String} {n : Nat}
    (h : r.consumerRemoved? queue = some (n, r')) (other : String) :
    r.consumersOf queue = n + 1 ∧
      r'.consumersOf other = (if queue = other then n else r.consumersOf other) ∧
      r'.bindings = r.bindings := by
  unfold consumerRemoved? at h
  split at h
  next => cases h
  next m hm =>
    injection h with h
    injection h with hn hr
    subst hn hr
    refine ⟨hm, ?_, rfl⟩
    simp [consumersOf]

end ReferenceCounts

/-! ## §2. The invariant -/

namespace Topology

/-- The built-in exchange of a built-in name. -/
theorem exchange_of_isBuiltin {name : String} (h : Name.isBuiltin name = true) :
    ∃ x ∈ Exchange.builtins, x.definition.name = name := by
  have hmem : name ∈ Exchange.builtins.map fun x => x.definition.name := by
    rw [Exchange.builtins_names]
    exact (Name.builtin_iff name).1 h
  exact List.mem_map.1 hmem

/-- The built-in exchanges, as they are set up. -/
theorem builtins_recorded : ∀ x ∈ Exchange.builtins,
    x.state = .active ∧ x.builtin = true ∧ x.definition.durable = true ∧
      Name.isBuiltin x.definition.name = true := by
  decide

theorem exchange?_addExchange (t : Topology) (d : ExchangeDef) (name : String) :
    (t.addExchange d).registry.exchange? name =
      if d.name = name then some { definition := d } else t.registry.exchange? name :=
  Registry.exchange?_insertExchange t.registry { definition := d } name

theorem queue?_addQueue (t : Topology) (d : QueueDef) (owner : Option ConnectionId)
    (name : String) :
    (t.addQueue d owner).registry.queue? name =
      if d.name = name then
        some { definition := d, owner, incarnation := t.registry.lastIncarnation + 1 }
      else t.registry.queue? name :=
  Registry.queue?_insertQueue t.registry { definition := d, owner } name

/-- How the registry, the bindings and the counts of a broker hang together. -/
structure WellFormed (t : Topology) : Prop where
  /-- The two indexes of the table agree. -/
  table : t.bindings.Consistent
  queue_of_binding : ∀ b ∈ t.bindings, t.registry.hasQueue b.queue = true
  exchange_of_binding : ∀ b ∈ t.bindings, t.registry.hasExchange b.exchange = true
  bindings_counted : ∀ x, t.references.bindingsOf x = (t.bindings.ofExchange x).length
  /-- Nobody consumes from a queue that is not there. -/
  consumers_idle : ∀ q, t.registry.hasQueue q = false → t.references.consumersOf q = 0
  exchange_filed : ∀ name x, t.registry.exchange? name = some x →
    x.definition.name = name ∧ x.state = .active
  queue_filed : ∀ name q, t.registry.queue? name = some q →
    q.definition.name = name ∧ q.state = .active
  /-- Exactly the exclusive queues are owned. -/
  owned_iff_exclusive : ∀ name q, t.registry.queue? name = some q →
    (q.owner.isSome = true ↔ q.definition.exclusive = true)
  builtin_iff : ∀ name x, t.registry.exchange? name = some x →
    x.builtin = Name.isBuiltin name
  builtins_present : ∀ x ∈ Exchange.builtins, t.registry.exchange? x.definition.name = some x

/-- The same topology with another name generator. -/
def withGenerator (t : Topology) (g : NameGenerator) : Topology :=
  { t with registry := { t.registry with names := g } }

namespace WellFormed

variable {t : Topology}

/-- A name that no exchange has is not that of a built-in one. -/
theorem isBuiltin_of_absent (h : t.WellFormed) {name : String}
    (hnone : t.registry.exchange? name = none) : Name.isBuiltin name = false := by
  rw [Bool.eq_false_iff]
  intro hbuiltin
  obtain ⟨x, hx, rfl⟩ := exchange_of_isBuiltin hbuiltin
  rw [h.builtins_present x hx] at hnone
  cases hnone

/-! ## §3. Taking in -/

theorem withGenerator (h : t.WellFormed) (g : NameGenerator) : (t.withGenerator g).WellFormed where
  table := h.table
  queue_of_binding := h.queue_of_binding
  exchange_of_binding := h.exchange_of_binding
  bindings_counted := h.bindings_counted
  consumers_idle := h.consumers_idle
  exchange_filed := h.exchange_filed
  queue_filed := h.queue_filed
  owned_iff_exclusive := h.owned_iff_exclusive
  builtin_iff := h.builtin_iff
  builtins_present := h.builtins_present

/-- An exchange under a name that is free. -/
theorem addExchange (h : t.WellFormed) {d : ExchangeDef}
    (hnew : t.registry.exchange? d.name = none) : (t.addExchange d).WellFormed := by
  have hlook := exchange?_addExchange t d
  refine ⟨h.table, h.queue_of_binding, ?_, h.bindings_counted, h.consumers_idle, ?_,
    h.queue_filed, h.owned_iff_exclusive, ?_, ?_⟩
  · intro b hb
    obtain ⟨x, hx⟩ := Registry.hasExchange_iff.1 (h.exchange_of_binding b hb)
    rw [Registry.hasExchange_iff, hlook]
    split
    · exact ⟨_, rfl⟩
    · exact ⟨x, hx⟩
  · intro name x hx
    rw [hlook] at hx
    split at hx
    next hname =>
      injection hx with hx
      subst hx
      exact ⟨hname, rfl⟩
    next => exact h.exchange_filed name x hx
  · intro name x hx
    rw [hlook] at hx
    split at hx
    next hname =>
      injection hx with hx
      subst hx hname
      exact (h.isBuiltin_of_absent hnew).symm
    next => exact h.builtin_iff name x hx
  · intro x hx
    rw [hlook]
    split
    next hname =>
      rw [hname, h.builtins_present x hx] at hnew
      cases hnew
    next => exact h.builtins_present x hx

/-- A queue under a name that is free, owned exactly if it is exclusive. -/
theorem addQueue (h : t.WellFormed) {d : QueueDef} {owner : Option ConnectionId}
    (howner : owner.isSome = true ↔ d.exclusive = true) : (t.addQueue d owner).WellFormed := by
  have hlook := queue?_addQueue t d owner
  refine ⟨h.table, ?_, h.exchange_of_binding, h.bindings_counted, ?_, h.exchange_filed, ?_, ?_,
    h.builtin_iff, h.builtins_present⟩
  · intro b hb
    obtain ⟨q, hq⟩ := Registry.hasQueue_iff.1 (h.queue_of_binding b hb)
    rw [Registry.hasQueue_iff, hlook]
    split
    · exact ⟨_, rfl⟩
    · exact ⟨q, hq⟩
  · intro q hq
    refine h.consumers_idle q ?_
    rw [Registry.hasQueue_eq_false_iff, hlook] at hq
    split at hq
    next => cases hq
    next => exact Registry.hasQueue_eq_false_iff.2 hq
  · intro name q hq
    rw [hlook] at hq
    split at hq
    next hname =>
      injection hq with hq
      subst hq
      exact ⟨hname, rfl⟩
    next => exact h.queue_filed name q hq
  · intro name q hq
    rw [hlook] at hq
    split at hq
    next =>
      injection hq with hq
      subst hq
      exact howner
    next => exact h.owned_iff_exclusive name q hq

/-- A new binding between two entities that are there. -/
theorem addBinding (h : t.WellFormed) {b : Binding} (hq : t.registry.hasQueue b.queue = true)
    (hx : t.registry.hasExchange b.exchange = true) (hb : ¬ b ∈ t.bindings) :
    (t.addBinding b).WellFormed := by
  have hinsert : t.bindings.insert b = (true, (t.bindings.insert b).2) := by
    simp [BindingTable.insert, BindingTable.mem_iff_contains.not.1 hb]
  have hadd : t.addBinding b =
      { t with
        bindings := (t.bindings.insert b).2
        references := t.references.bindingAdded b.exchange } := by
    unfold Topology.addBinding
    rw [hinsert]
  rw [hadd]
  refine ⟨h.table.insert b, ?_, ?_, ?_, ?_, h.exchange_filed, h.queue_filed,
    h.owned_iff_exclusive, h.builtin_iff, h.builtins_present⟩
  · intro c hc
    rcases BindingTable.mem_insert.1 hc with rfl | hc
    · exact hq
    · exact h.queue_of_binding c hc
  · intro c hc
    rcases BindingTable.mem_insert.1 hc with rfl | hc
    · exact hx
    · exact h.exchange_of_binding c hc
  · intro x
    show (t.references.bindingAdded b.exchange).bindingsOf x = _
    rw [ReferenceCounts.bindingsOf_bindingAdded, h.table.length_ofExchange_insert hb,
      ← h.bindings_counted]
    split
    next hbx => rw [hbx]
    next => rfl
  · intro q hidle
    exact h.consumers_idle q hidle

/-! ## §4. Consumers -/

/-- A consumer joins a queue that is there. -/
theorem attach (h : t.WellFormed) {name : String} (hq : t.registry.hasQueue name = true) :
    Topology.WellFormed { t with references := t.references.consumerAdded name } := by
  refine ⟨h.table, h.queue_of_binding, h.exchange_of_binding, h.bindings_counted, ?_,
    h.exchange_filed, h.queue_filed, h.owned_iff_exclusive, h.builtin_iff, h.builtins_present⟩
  intro q hidle
  show (t.references.consumerAdded name).consumersOf q = 0
  rw [ReferenceCounts.consumersOf_consumerAdded]
  split
  next hname =>
    subst hname
    rw [show t.registry.hasQueue name = false from hidle] at hq
    cases hq
  next => exact h.consumers_idle q hidle

/-- A consumer leaves. -/
theorem detach (h : t.WellFormed) {name : String} {n : Nat} {r : ReferenceCounts}
    (hr : t.references.consumerRemoved? name = some (n, r)) :
    Topology.WellFormed { t with references := r } := by
  refine ⟨h.table, h.queue_of_binding, h.exchange_of_binding, ?_, ?_, h.exchange_filed,
    h.queue_filed, h.owned_iff_exclusive, h.builtin_iff, h.builtins_present⟩
  · intro x
    have hbindings := (ReferenceCounts.consumersOf_consumerRemoved? hr x).2.2
    rw [← h.bindings_counted, ReferenceCounts.bindingsOf, ReferenceCounts.bindingsOf, hbindings]
  · intro q hidle
    obtain ⟨hcount, hleft, -⟩ := ReferenceCounts.consumersOf_consumerRemoved? hr q
    rw [hleft]
    split
    next hname =>
      -- a queue that somebody leaves is there
      rw [hname, h.consumers_idle q hidle] at hcount
      cases hcount
    next => exact h.consumers_idle q hidle

end WellFormed

/-! ## §5. The start -/

/-- A fresh registry finds the built-in exchanges under their names. -/
theorem exchange?_initial {nonce : UInt64} {name : String} {x : Exchange} :
    (initial nonce).registry.exchange? name = some x ↔
      x ∈ Exchange.builtins ∧ x.definition.name = name := by
  have hdistinct : (Exchange.builtins.map fun x => (x.definition.name, x)).Pairwise
      fun a b => ¬ compare a.1 b.1 = .eq := by decide
  show (Std.ExtTreeMap.ofList (Exchange.builtins.map fun x => (x.definition.name, x))
    compare)[name]? = some x ↔ _
  constructor
  · intro hx
    cases hfind : (Exchange.builtins.map fun x => x.definition.name).contains name with
    | false =>
      rw [Std.ExtTreeMap.getElem?_ofList_of_contains_eq_false (by simpa using hfind)] at hx
      cases hx
    | true =>
      obtain ⟨y, hy, rfl⟩ := List.mem_map.1 (List.contains_iff_mem.1 hfind)
      have hmem : (y.definition.name, y) ∈ Exchange.builtins.map fun x => (x.definition.name, x) :=
        List.mem_map.2 ⟨y, hy, rfl⟩
      rw [Std.ExtTreeMap.getElem?_ofList_of_mem Std.ReflCmp.compare_self hdistinct hmem] at hx
      injection hx with hx
      subst hx
      exact ⟨hy, rfl⟩
  · rintro ⟨hx, rfl⟩
    have hmem : (x.definition.name, x) ∈ Exchange.builtins.map fun x => (x.definition.name, x) :=
      List.mem_map.2 ⟨x, hx, rfl⟩
    exact Std.ExtTreeMap.getElem?_ofList_of_mem Std.ReflCmp.compare_self hdistinct hmem

/-- A fresh broker has the built-in exchanges and nothing else. -/
theorem wellFormed_initial (nonce : UInt64) : (initial nonce).WellFormed := by
  have hnone : ∀ b, ¬ b ∈ (initial nonce).bindings := BindingTable.not_mem_empty
  refine ⟨BindingTable.consistent_empty, fun b hb => absurd hb (hnone b),
    fun b hb => absurd hb (hnone b), ?_, ?_, ?_, ?_, ?_, ?_, ?_⟩
  · intro x
    rfl
  · intro q _
    rfl
  · intro name x hx
    obtain ⟨hmem, hname⟩ := exchange?_initial.1 hx
    exact ⟨hname, (builtins_recorded x hmem).1⟩
  · intro name q hq
    cases hq
  · intro name q hq
    cases hq
  · intro name x hx
    obtain ⟨hmem, rfl⟩ := exchange?_initial.1 hx
    obtain ⟨-, hbuiltin, -, hname⟩ := builtins_recorded x hmem
    rw [hbuiltin, hname]
  · intro x hx
    exact exchange?_initial.2 ⟨hx, rfl⟩

end Topology

end BrokerTopology
