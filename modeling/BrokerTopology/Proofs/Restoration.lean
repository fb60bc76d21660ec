/-
  BrokerTopology.Proofs.Restoration — the topology that a durable state
  stands for.

  A topology is restored by taking the records of a state into a fresh
  one: first the exchanges, except those under a built-in name, then the
  queues, then the bindings.  For a closed state everything is taken in,
  so what is found afterwards can be read off the state, and nothing else
  is there: nobody owns a queue or consumes from one.

  Main statements:
    * `exchange?_restore`, `queue?_restore`, `mem_bindings_restore`,
      `consumersOf_restore` — what a restored topology holds.
    * `exchange?_restore_of_known`, `queue?_restore_of_known` — both ends
      of every binding of the state are there, and last.
    * `wellFormed_restore` — it has the invariant of every topology.
-/
import BrokerTopology.Proofs.Replay
import BrokerTopology.Proofs.TopologyInvariant

namespace BrokerTopology

/-- The record apart from the number that it was taken in under. -/
def Queue.unnumbered (q : Queue) : Queue := { q with incarnation := 0 }

namespace Topology

/-! ## §1. Taking in many -/

/-- Exchanges change neither the queues, nor the bindings, nor the counts. -/
theorem foldl_addExchange_rest (t : Topology) (ds : List ExchangeDef) :
    (ds.foldl addExchange t).registry.queues = t.registry.queues ∧
      (ds.foldl addExchange t).bindings = t.bindings ∧
      (ds.foldl addExchange t).references = t.references := by
  induction ds generalizing t with
  | nil => exact ⟨rfl, rfl, rfl⟩
  | cons d ds ih => exact ih (t.addExchange d)

theorem wellFormed_foldl_addExchange {t : Topology} (h : t.WellFormed) {ds : List ExchangeDef}
    (hnodup : (ds.map ExchangeDef.name).Nodup)
    (hnew : ∀ d ∈ ds, t.registry.exchange? d.name = none) :
    (ds.foldl addExchange t).WellFormed := by
  induction ds generalizing t with
  | nil => exact h
  | cons d ds ih =>
    rw [List.map_cons, List.nodup_cons] at hnodup
    refine ih (h.addExchange (hnew d List.mem_cons_self)) hnodup.2 ?_
    intro d' hd'
    have hne : d.name ≠ d'.name := by
      intro heq
      exact hnodup.1 (List.mem_map.2 ⟨d', hd', heq.symm⟩)
    rw [exchange?_addExchange, if_neg hne]
    exact hnew d' (List.mem_cons_of_mem _ hd')

/-- Queues change neither the exchanges, nor the bindings, nor the counts. -/
theorem foldl_addQueue_rest (t : Topology) (ds : List QueueDef) :
    (ds.foldl (fun t d => t.addQueue d none) t).registry.exchanges = t.registry.exchanges ∧
      (ds.foldl (fun t d => t.addQueue d none) t).bindings = t.bindings ∧
      (ds.foldl (fun t d => t.addQueue d none) t).references = t.references := by
  induction ds generalizing t with
  | nil => exact ⟨rfl, rfl, rfl⟩
  | cons d ds ih => exact ih (t.addQueue d none)

theorem wellFormed_foldl_addQueue {t : Topology} (h : t.WellFormed) {ds : List QueueDef}
    (hds : ∀ d ∈ ds, d.exclusive = false) :
    (ds.foldl (fun t d => t.addQueue d none) t).WellFormed := by
  induction ds generalizing t with
  | nil => exact h
  | cons d ds ih =>
    refine ih (h.addQueue ?_) fun d' hd' => hds d' (List.mem_cons_of_mem _ hd')
    rw [hds d List.mem_cons_self]
    simp

/-- Bindings change neither the exchanges and queues nor the consumers. -/
theorem addBinding_rest (t : Topology) (b : Binding) :
    (t.addBinding b).registry = t.registry ∧
      (t.addBinding b).references.consumers = t.references.consumers := by
  unfold addBinding
  split
  next => exact ⟨rfl, rfl⟩
  next => exact ⟨rfl, rfl⟩

theorem foldl_addBinding_rest (t : Topology) (bs : List Binding) :
    (bs.foldl addBinding t).registry = t.registry ∧
      (bs.foldl addBinding t).references.consumers = t.references.consumers := by
  induction bs generalizing t with
  | nil => exact ⟨rfl, rfl⟩
  | cons b bs ih =>
    obtain ⟨hregistry, hconsumers⟩ := addBinding_rest t b
    rw [List.foldl_cons, (ih _).1, (ih _).2]
    exact ⟨hregistry, hconsumers⟩

theorem mem_addBinding {t : Topology} {b c : Binding} :
    c ∈ (t.addBinding b).bindings ↔ c = b ∨ c ∈ t.bindings := by
  have hinsert : c ∈ (t.bindings.insert b).2 ↔ c = b ∨ c ∈ t.bindings := BindingTable.mem_insert
  unfold addBinding BindingTable.insert at *
  split at hinsert
  next hb =>
    simp only [hb, ↓reduceIte]
    exact hinsert
  next hb =>
    simp only [hb, Bool.false_eq_true, ↓reduceIte]
    exact hinsert

theorem mem_foldl_addBinding {t : Topology} {bs : List Binding} {c : Binding} :
    c ∈ (bs.foldl addBinding t).bindings ↔ c ∈ bs ∨ c ∈ t.bindings := by
  induction bs generalizing t with
  | nil => simp
  | cons b bs ih =>
    rw [List.foldl_cons, ih, mem_addBinding, List.mem_cons]
    tauto

theorem wellFormed_foldl_addBinding {t : Topology} (h : t.WellFormed) {bs : List Binding}
    (hnodup : bs.Nodup) (hends : ∀ b ∈ bs, t.registry.hasQueue b.queue = true ∧
      t.registry.hasExchange b.exchange = true) (hnew : ∀ b ∈ bs, ¬ b ∈ t.bindings) :
    (bs.foldl addBinding t).WellFormed := by
  induction bs generalizing t with
  | nil => exact h
  | cons b bs ih =>
    obtain ⟨hnotin, hnodup⟩ := List.nodup_cons.1 hnodup
    obtain ⟨hq, hx⟩ := hends b List.mem_cons_self
    refine ih (h.addBinding hq hx (hnew b List.mem_cons_self)) hnodup ?_ ?_
    · intro c hc
      rw [(addBinding_rest t b).1]
      exact hends c (List.mem_cons_of_mem _ hc)
    · intro c hc hmem
      rcases mem_addBinding.1 hmem with rfl | hmem
      · exact hnotin hc
      · exact hnew c (List.mem_cons_of_mem _ hc) hmem

/-! ## §2. What is restored -/

variable {nonce : UInt64} {s : DurableState}

/-- The exchanges of a state that are taken in. -/
def restoredExchanges (s : DurableState) : List ExchangeDef :=
  s.exchanges.values.filter fun d => !Name.isBuiltin d.name

theorem mem_restoredExchanges (h : s.Closed) {d : ExchangeDef} :
    d ∈ restoredExchanges s ↔
      Name.isBuiltin d.name = false ∧ s.exchanges[d.name]? = some d := by
  rw [restoredExchanges, List.mem_filter, Bool.not_eq_true', NameMap.mem_values]
  constructor
  · rintro ⟨⟨name, hd⟩, hbuiltin⟩
    have hname : d.name = name := congrArg ExchangeDef.name (h.exchange_filed name d hd)
    exact ⟨hbuiltin, hname ▸ hd⟩
  · rintro ⟨hbuiltin, hd⟩
    exact ⟨⟨d.name, hd⟩, hbuiltin⟩

theorem nodup_restoredExchanges (h : s.Closed) :
    ((restoredExchanges s).map ExchangeDef.name).Nodup := by
  have hnodup : (s.exchanges.values.map ExchangeDef.name).Nodup :=
    NameMap.nodup_values fun _ _ hd => h.exchange_name hd
  exact hnodup.sublist (List.filter_sublist.map _)

theorem nodup_restoredQueues (h : s.Closed) : (s.queues.values.map QueueDef.name).Nodup :=
  NameMap.nodup_values fun _ _ hd => h.queue_name hd

/-- A fresh broker has no exchange under the name of one that is taken in. -/
theorem exchange?_initial_of_restored (h : s.Closed) {d : ExchangeDef}
    (hd : d ∈ restoredExchanges s) : (initial nonce).registry.exchange? d.name = none := by
  cases hx : (initial nonce).registry.exchange? d.name with
  | none => rfl
  | some x =>
    obtain ⟨hmem, hname⟩ := exchange?_initial.1 hx
    have hnot := ((mem_restoredExchanges h).1 hd).1
    rw [← hname, (builtins_recorded x hmem).2.2.2] at hnot
    cases hnot

/-- The built-in exchanges, and the others of the state. -/
theorem exchange?_restore (h : s.Closed) {name : String} {x : Exchange} :
    (restore nonce s).registry.exchange? name = some x ↔
      x ∈ Exchange.builtins ∧ x.definition.name = name ∨
        Name.isBuiltin name = false ∧
          ∃ d, s.exchanges[name]? = some d ∧ x = { definition := d } := by
  -- queues and bindings are put in after the exchanges, and touch none of them
  have hrest : (restore nonce s).registry.exchanges =
      ((restoredExchanges s).foldl addExchange (initial nonce)).registry.exchanges := by
    rw [restore, (foldl_addBinding_rest _ _).1]
    exact (foldl_addQueue_rest _ _).1
  have hlook := look_foldl (fun t name => t.registry.exchange? name) addExchange
    exchange?_addExchange (nodup_restoredExchanges h) (initial nonce) name x
  rw [Registry.exchange?, hrest, ← Registry.exchange?, hlook, exchange?_initial]
  constructor
  · rintro (⟨d, hd, rfl, rfl⟩ | ⟨-, hx⟩)
    · obtain ⟨hbuiltin, hd⟩ := (mem_restoredExchanges h).1 hd
      exact Or.inr ⟨hbuiltin, d, hd, rfl⟩
    · exact Or.inl hx
  · rintro (⟨hx, hname⟩ | ⟨hbuiltin, d, hd, rfl⟩)
    · refine Or.inr ⟨?_, hx, hname⟩
      intro d hd hsame
      have hnone : (initial nonce).registry.exchange? d.name = none :=
        exchange?_initial_of_restored h hd
      rw [hsame, exchange?_initial.2 ⟨hx, hname⟩] at hnone
      cases hnone
    · have hname := h.exchange_name hd
      exact Or.inl ⟨d, (mem_restoredExchanges h).2 ⟨hname ▸ hbuiltin, hname ▸ hd⟩, hname, rfl⟩

/-- The queues of the state, owned by nobody. -/
theorem queue?_restore (h : s.Closed) (name : String) :
    ((restore nonce s).registry.queue? name).map Queue.unnumbered =
      s.queues[name]?.map fun d => { definition := d } := by
  -- bindings are put in after the queues, and touch none of them
  have hrest : (restore nonce s).registry.queues =
      (s.queues.values.foldl (fun t d => t.addQueue d none)
        ((restoredExchanges s).foldl addExchange (initial nonce))).registry.queues := by
    rw [restore, (foldl_addBinding_rest _ _).1]
    rfl
  have hadd : ∀ (t : Topology) (d : QueueDef) (name : String),
      ((t.addQueue d none).registry.queue? name).map Queue.unnumbered =
        if d.name = name then some { definition := d }
        else (t.registry.queue? name).map Queue.unnumbered := by
    intro t d name
    rw [queue?_addQueue]
    split
    next => rfl
    next => rfl
  refine Option.ext ?_
  intro q
  have hlook := look_foldl (fun t name => (t.registry.queue? name).map Queue.unnumbered)
    (fun t d => t.addQueue d none) hadd (nodup_restoredQueues h)
    ((restoredExchanges s).foldl addExchange (initial nonce)) name q
  rw [Registry.queue?, hrest]
  refine hlook.trans ?_
  simp only [Registry.queue?, (foldl_addExchange_rest _ _).1, Option.map_eq_some_iff]
  constructor
  · rintro (⟨d, hd, rfl, rfl⟩ | ⟨-, q, hq, -⟩)
    · obtain ⟨name, hd⟩ := NameMap.mem_values.1 hd
      exact ⟨d, h.queue_name hd ▸ hd, rfl⟩
    · simp [initial, Registry.initial] at hq
  · rintro ⟨d, hd, rfl⟩
    exact Or.inl ⟨d, NameMap.mem_values.2 ⟨name, hd⟩, h.queue_name hd, rfl⟩

theorem definition_restore (h : s.Closed) (name : String) :
    ((restore nonce s).registry.queue? name).map Queue.definition = s.queues[name]? := by
  have hq : ((restore nonce s).registry.queue? name).map Queue.unnumbered =
      s.queues[name]?.map fun d => { definition := d } := queue?_restore h name
  replace hq := congrArg (Option.map Queue.definition) hq
  rw [Option.map_map, Option.map_map] at hq
  exact hq.trans Option.map_id'

/-- The exchanges that a state knows are there, and last. -/
theorem exchange?_restore_of_known (h : s.Closed) {name : String}
    (hknown : s.knowsExchange name = true) :
    ∃ x, (restore nonce s).registry.exchange? name = some x ∧ x.definition.durable = true := by
  cases hbuiltin : Name.isBuiltin name with
  | true =>
    obtain ⟨x, hx, hname⟩ := exchange_of_isBuiltin hbuiltin
    exact ⟨x, (exchange?_restore h).2 (Or.inl ⟨hx, hname⟩), (builtins_recorded x hx).2.2.1⟩
  | false =>
    rw [DurableState.knowsExchange, hbuiltin, Bool.or_false,
      Std.ExtTreeMap.contains_eq_isSome_getElem?, Option.isSome_iff_exists] at hknown
    obtain ⟨d, hd⟩ := hknown
    refine ⟨_, (exchange?_restore h).2 (Or.inr ⟨hbuiltin, d, hd, rfl⟩), ?_⟩
    show d.durable = true
    rw [h.exchange_filed name d hd]
    rfl

/-- So are its queues. -/
theorem queue?_restore_of_known (h : s.Closed) {name : String}
    (hknown : s.queues.contains name = true) :
    ∃ q, (restore nonce s).registry.queue? name = some q ∧ q.definition.persistent = true := by
  rw [Std.ExtTreeMap.contains_eq_isSome_getElem?, Option.isSome_iff_exists] at hknown
  obtain ⟨d, hd⟩ := hknown
  obtain ⟨q, hq, hdefinition⟩ := Option.map_eq_some_iff.1 ((definition_restore h name).trans hd)
  refine ⟨q, hq, ?_⟩
  rw [hdefinition, h.queue_filed name d hd]
  rfl

/-- The bindings of the state. -/
theorem mem_bindings_restore {b : Binding} :
    b ∈ (restore nonce s).bindings ↔ b ∈ s.bindings := by
  rw [restore, mem_foldl_addBinding, (foldl_addQueue_rest _ _).2.1,
    (foldl_addExchange_rest _ _).2.1, Std.ExtTreeSet.mem_toList]
  exact ⟨fun hb => hb.resolve_right (BindingTable.not_mem_empty b), Or.inl⟩

/-- Nobody consumes yet. -/
theorem consumersOf_restore (name : String) :
    (restore nonce s).references.consumersOf name = 0 := by
  rw [ReferenceCounts.consumersOf, restore, (foldl_addBinding_rest _ _).2,
    (foldl_addQueue_rest _ _).2.2, (foldl_addExchange_rest _ _).2.2]
  rfl

/-- What a closed state stands for is well formed. -/
theorem wellFormed_restore (h : s.Closed) : (restore nonce s).WellFormed := by
  have hexchanges : ((restoredExchanges s).foldl addExchange (initial nonce)).WellFormed :=
    wellFormed_foldl_addExchange (wellFormed_initial nonce) (nodup_restoredExchanges h)
      fun d hd => exchange?_initial_of_restored h hd
  have hqueues : (s.queues.values.foldl (fun t d => t.addQueue d none)
      ((restoredExchanges s).foldl addExchange (initial nonce))).WellFormed := by
    refine wellFormed_foldl_addQueue hexchanges ?_
    intro d hd
    obtain ⟨name, hd⟩ := NameMap.mem_values.1 hd
    rw [h.queue_filed name d hd]
    rfl
  refine wellFormed_foldl_addBinding hqueues (BindingSet.nodup_toList s.bindings) ?_ ?_
  · intro b hb
    rw [Std.ExtTreeSet.mem_toList] at hb
    have hregistry := (foldl_addBinding_rest (s.queues.values.foldl (fun t d => t.addQueue d none)
      ((restoredExchanges s).foldl addExchange (initial nonce))) s.bindings.toList).1
    -- both ends of a binding are known to the state, so both were restored
    rw [← hregistry]
    show (restore nonce s).registry.hasQueue b.queue = true ∧
      (restore nonce s).registry.hasExchange b.exchange = true
    obtain ⟨q, hq, -⟩ := queue?_restore_of_known h (h.queue_known b hb)
    obtain ⟨x, hx, -⟩ := exchange?_restore_of_known h (h.exchange_known b hb)
    exact ⟨Registry.hasQueue_iff.2 ⟨q, hq⟩, Registry.hasExchange_iff.2 ⟨x, hx⟩⟩
  · intro b _
    rw [(foldl_addQueue_rest _ _).2.1, (foldl_addExchange_rest _ _).2.1]
    exact BindingTable.not_mem_empty b

end Topology

end BrokerTopology
