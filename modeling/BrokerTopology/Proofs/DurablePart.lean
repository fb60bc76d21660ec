/-
  BrokerTopology.Proofs.DurablePart — the durable state and the running
  topology, side by side.

  While a broker runs, its topology is changed in place and its log is
  added to; what the log adds up to is never compared with the topology.
  `Describes` is the relation between the two: the state holds exactly
  the durable exchanges, the persistent queues, and the bindings between
  two such.  What it holds under built-in names does not matter, since
  those exchanges are there anyway.

  One elementary change keeps the relation if the state folds in what
  the change is recorded as, and of that nothing is passed over.

  Main statements:
    * `Describes.step`, `Describes.steps` — the relation along a run.
    * `describes_restore` — a restored topology is described by the state
      that it was restored from.
    * `recovers_restore` — and a state restores the durable part of every
      topology that it describes.
-/
import BrokerTopology.Proofs.Restoration
import BrokerTopology.Proofs.TopologySteps

namespace BrokerTopology

namespace Topology

/-! ## §1. Bindings that last -/

/-- Whether a binding lasts depends on its two ends. -/
theorem isPersistent_congr {t t' : Topology} {b : Binding}
    (hx : t'.registry.exchange? b.exchange = t.registry.exchange? b.exchange)
    (hq : t'.registry.queue? b.queue = t.registry.queue? b.queue) :
    t'.isPersistent b = t.isPersistent b := by
  rw [isPersistent, isPersistent, hx, hq]

theorem isPersistent_iff {t : Topology} {b : Binding} :
    t.isPersistent b = true ↔
      (t.registry.exchange? b.exchange).any (fun x => x.definition.durable) = true ∧
        (t.registry.queue? b.queue).any (fun q => q.definition.persistent) = true := by
  rw [isPersistent, Bool.and_eq_true]

/-- A binding that a removal leaves lasts as it did before. -/
theorem isPersistent_remove {t : Topology} {r : Removal} {c : Binding}
    (hleft : r.covers c = false) : (t.remove r).isPersistent c = t.isPersistent c := by
  obtain ⟨hq, hx⟩ := Removal.ne_of_covers_eq_false hleft
  refine isPersistent_congr ?_ ?_
  · rw [exchange?_remove, if_neg hx]
  · rw [queue?_remove, if_neg hq]

/-- What takes along a binding that lasts is recorded. -/
theorem recordOf_ne_none {t : Topology} {r : Removal} {c : Binding}
    (hlasts : t.isPersistent c = true) (hcovers : r.covers c = true) : t.recordOf r ≠ none := by
  obtain ⟨hx, hq⟩ := isPersistent_iff.1 hlasts
  cases r with
  | binding b =>
    obtain rfl : c = b := beq_iff_eq.1 hcovers
    simp [recordOf, hlasts]
  | queue name =>
    obtain rfl : c.queue = name := beq_iff_eq.1 hcovers
    simp [recordOf, hq]
  | exchange name =>
    obtain rfl : c.exchange = name := beq_iff_eq.1 hcovers
    simp [recordOf, hx]

end Topology

namespace DurableState

open BrokerTopology.Topology

/-! ## §2. The relation -/

/-- The state holds exactly what of the topology outlives the broker. -/
structure Describes (s : DurableState) (t : Topology) : Prop where
  exchanges : ∀ name, Name.isBuiltin name = false → s.exchanges[name]? =
    ((t.registry.exchange? name).map Exchange.definition).filter ExchangeDef.durable
  queues : ∀ name, s.queues[name]? =
    ((t.registry.queue? name).map Queue.definition).filter QueueDef.persistent
  bindings : ∀ b, b ∈ s.bindings ↔ b ∈ t.bindings ∧ t.isPersistent b = true

namespace Describes

variable {s : DurableState} {t : Topology}

/-- An exchange that lasts is known to the state. -/
theorem knowsExchange (hd : s.Describes t) {name : String}
    (hx : (t.registry.exchange? name).any (fun x => x.definition.durable) = true) :
    s.knowsExchange name = true := by
  cases hbuiltin : Name.isBuiltin name with
  | true => rw [DurableState.knowsExchange, hbuiltin, Bool.or_true]
  | false =>
    rw [DurableState.knowsExchange, Std.ExtTreeMap.contains_eq_isSome_getElem?,
      hd.exchanges name hbuiltin]
    cases hfound : t.registry.exchange? name with
    | none =>
      rw [hfound] at hx
      cases hx
    | some x =>
      rw [hfound] at hx
      have hdurable : x.definition.durable = true := hx
      simp [hdurable]

/-- So is a queue that lasts. -/
theorem contains_queue (hd : s.Describes t) {name : String}
    (hq : (t.registry.queue? name).any (fun q => q.definition.persistent) = true) :
    s.queues.contains name = true := by
  rw [Std.ExtTreeMap.contains_eq_isSome_getElem?, hd.queues name]
  cases hfound : t.registry.queue? name with
  | none =>
    rw [hfound] at hq
    cases hq
  | some q =>
    rw [hfound] at hq
    have hpersistent : q.definition.persistent = true := hq
    simp [hpersistent]

/-! ## §3. One change -/

theorem addExchange (hd : s.Describes t) (h : t.WellFormed) {d : ExchangeDef}
    (hnew : t.registry.exchange? d.name = none) :
    ∃ s', s.Replays (if d.durable then [.declareExchange d.name d.kind d.autoDelete] else []) s' ∧
      s'.Describes (t.addExchange d) := by
  have hbindings : ∀ b, b ∈ s.bindings ↔
      b ∈ (t.addExchange d).bindings ∧ (t.addExchange d).isPersistent b = true := by
    intro b
    rw [hd.bindings]
    refine and_congr_right fun hb => ?_
    obtain ⟨x, hx⟩ := Registry.hasExchange_iff.1 (h.exchange_of_binding b hb)
    have hother : d.name ≠ b.exchange := by
      intro heq
      rw [heq, hx] at hnew
      cases hnew
    have hsame : (t.addExchange d).isPersistent b = t.isPersistent b :=
      isPersistent_congr (by rw [exchange?_addExchange, if_neg hother]) rfl
    rw [hsame]
  cases hdurable : d.durable with
  | true =>
    refine ⟨_, .single rfl, ?_, hd.queues, hbindings⟩
    intro name hname
    have hdef : exchangeDef d.name d.kind d.autoDelete = d := by
      rw [exchangeDef, ← hdurable]
    show (s.exchanges.insert d.name (exchangeDef d.name d.kind d.autoDelete))[name]? = _
    rw [NameMap.getElem?_insert, exchange?_addExchange, hdef]
    split
    next => exact (Option.filter_some_pos hdurable).symm
    next => exact hd.exchanges name hname
  | false =>
    refine ⟨s, .refl s, ?_, hd.queues, hbindings⟩
    intro name hname
    rw [exchange?_addExchange, hd.exchanges name hname]
    split
    next heq =>
      rw [← heq, hnew]
      exact (Option.filter_some_neg hdurable).symm
    next => rfl

theorem addQueue (hd : s.Describes t) (h : t.WellFormed) {d : QueueDef}
    {owner : Option ConnectionId} (hnew : t.registry.queue? d.name = none) :
    ∃ s', s.Replays (if d.persistent then [.declareQueue d.name d.autoDelete] else []) s' ∧
      s'.Describes (t.addQueue d owner) := by
  have hlook := queue?_addQueue t d owner
  have hbindings : ∀ b, b ∈ s.bindings ↔
      b ∈ (t.addQueue d owner).bindings ∧ (t.addQueue d owner).isPersistent b = true := by
    intro b
    rw [hd.bindings]
    refine and_congr_right fun hb => ?_
    obtain ⟨q, hq⟩ := Registry.hasQueue_iff.1 (h.queue_of_binding b hb)
    have hother : d.name ≠ b.queue := by
      intro heq
      rw [heq, hq] at hnew
      cases hnew
    have hsame : (t.addQueue d owner).isPersistent b = t.isPersistent b :=
      isPersistent_congr rfl (by rw [hlook, if_neg hother])
    rw [hsame]
  cases hpersistent : d.persistent with
  | true =>
    refine ⟨_, .single rfl, hd.exchanges, ?_, hbindings⟩
    intro name
    have hdef : queueDef d.name d.autoDelete = d := by
      obtain ⟨hdurable, hexclusive⟩ := Bool.and_eq_true_iff.1 hpersistent
      rw [Bool.not_eq_true'] at hexclusive
      rw [queueDef, ← hdurable, ← hexclusive]
    show (s.queues.insert d.name (queueDef d.name d.autoDelete))[name]? = _
    rw [NameMap.getElem?_insert, hlook, hdef]
    split
    next => exact (Option.filter_some_pos hpersistent).symm
    next => exact hd.queues name
  | false =>
    refine ⟨s, .refl s, hd.exchanges, ?_, hbindings⟩
    intro name
    rw [hlook, hd.queues name]
    split
    next heq =>
      rw [← heq, hnew]
      exact (Option.filter_some_neg hpersistent).symm
    next => rfl

theorem addBinding (hd : s.Describes t) {b : Binding} :
    ∃ s', s.Replays (if t.isPersistent b then [.bind b] else []) s' ∧
      s'.Describes (t.addBinding b) := by
  obtain ⟨hregistry, -⟩ := addBinding_rest t b
  have hsame : ∀ c, (t.addBinding b).isPersistent c = t.isPersistent c :=
    fun c => isPersistent_congr (by rw [hregistry]) (by rw [hregistry])
  cases hpersistent : t.isPersistent b with
  | true =>
    obtain ⟨hx, hq⟩ := isPersistent_iff.1 hpersistent
    have happly : s.apply (.bind b) = (true, { s with bindings := s.bindings.insert b }) := by
      simp [DurableState.apply, hd.knowsExchange hx, hd.contains_queue hq]
    refine ⟨_, .single happly, ?_, ?_, ?_⟩
    · rw [hregistry]
      exact hd.exchanges
    · rw [hregistry]
      exact hd.queues
    · intro c
      rw [Std.ExtTreeSet.mem_insert, Std.LawfulEqCmp.compare_eq_iff_eq, hd.bindings, mem_addBinding,
        hsame]
      constructor
      · rintro (rfl | ⟨hc, hlasts⟩)
        · exact ⟨Or.inl rfl, hpersistent⟩
        · exact ⟨Or.inr hc, hlasts⟩
      · rintro ⟨rfl | hc, hlasts⟩
        · exact Or.inl rfl
        · exact Or.inr ⟨hc, hlasts⟩
  | false =>
    refine ⟨s, .refl s, ?_, ?_, ?_⟩
    · rw [hregistry]
      exact hd.exchanges
    · rw [hregistry]
      exact hd.queues
    · intro c
      rw [hd.bindings, mem_addBinding, hsame]
      constructor
      · rintro ⟨hc, hlasts⟩
        exact ⟨Or.inr hc, hlasts⟩
      · rintro ⟨rfl | hc, hlasts⟩
        · rw [hpersistent] at hlasts
          cases hlasts
        · exact ⟨hc, hlasts⟩

/-- A state without what a removal takes along describes what the removal leaves. -/
theorem of_removal (hd : s.Describes t) (h : t.WellFormed) {r : Removal} {s' : DurableState}
    (hexchanges : ∀ name, Name.isBuiltin name = false →
      s'.exchanges[name]? = if r = .exchange name then none else s.exchanges[name]?)
    (hqueues : ∀ name, s'.queues[name]? = if r = .queue name then none else s.queues[name]?)
    (hbindings : ∀ c, c ∈ s'.bindings ↔ c ∈ s.bindings ∧ r.covers c = false) :
    s'.Describes (t.remove r) := by
  refine ⟨?_, ?_, ?_⟩
  · intro name hname
    rw [hexchanges name hname, exchange?_remove]
    split
    next => rfl
    next => exact hd.exchanges name hname
  · intro name
    rw [hqueues name, queue?_remove]
    split
    next => rfl
    next => exact hd.queues name
  · intro c
    rw [hbindings, hd.bindings, mem_remove h]
    constructor
    · rintro ⟨⟨hc, hlasts⟩, hleft⟩
      exact ⟨⟨hc, hleft⟩, (isPersistent_remove hleft).trans hlasts⟩
    · rintro ⟨⟨hc, hleft⟩, hlasts⟩
      exact ⟨⟨hc, (isPersistent_remove hleft).symm.trans hlasts⟩, hleft⟩

/-- Of what is removed without a record the state knows nothing. -/
theorem remove_unrecorded (hd : s.Describes t) (h : t.WellFormed) {r : Removal}
    (hnone : t.recordOf r = none) : s.Describes (t.remove r) := by
  refine hd.of_removal h ?_ ?_ ?_
  · intro name hname
    split
    next hr =>
      subst hr
      rw [hd.exchanges name hname]
      -- an exchange that is there and not recorded is not durable
      cases hx : t.registry.exchange? name with
      | none => rfl
      | some x =>
        refine Option.filter_some_neg ?_
        simpa [recordOf, hx] using hnone
    next => rfl
  · intro name
    split
    next hr =>
      subst hr
      rw [hd.queues name]
      cases hq : t.registry.queue? name with
      | none => rfl
      | some q =>
        refine Option.filter_some_neg ?_
        simpa [recordOf, hq] using hnone
    next => rfl
  · intro c
    refine ⟨fun hc => ⟨hc, ?_⟩, And.left⟩
    rw [Bool.eq_false_iff]
    intro hcovers
    exact recordOf_ne_none ((hd.bindings c).1 hc).2 hcovers hnone

theorem unbind (hd : s.Describes t) (h : t.WellFormed) {b : Binding} (hb : b ∈ t.bindings)
    (hpersistent : t.isPersistent b = true) :
    ∃ s', s.apply (.unbind b) = (true, s') ∧ s'.Describes (t.remove (.binding b)) := by
  have hcontains : s.bindings.contains b = true :=
    Std.ExtTreeSet.contains_iff_mem.2 ((hd.bindings b).2 ⟨hb, hpersistent⟩)
  refine ⟨{ s with bindings := s.bindings.erase b }, by rw [DurableState.apply, hcontains],
    hd.of_removal h ?_ ?_ ?_⟩
  · intro name _
    rw [if_neg (by simp)]
  · intro name
    rw [if_neg (by simp)]
  · intro c
    rw [Std.ExtTreeSet.mem_erase, Ne, Std.LawfulEqCmp.compare_eq_iff_eq, Removal.covers,
      beq_eq_false_iff_ne]
    constructor
    · rintro ⟨hne, hc⟩
      exact ⟨hc, Ne.symm hne⟩
    · rintro ⟨hc, hne⟩
      exact ⟨Ne.symm hne, hc⟩

theorem deleteQueue (hd : s.Describes t) (h : t.WellFormed) {name : String}
    (hpersistent : (t.registry.queue? name).any (fun q => q.definition.persistent) = true) :
    ∃ s', s.apply (.deleteQueue name) = (true, s') ∧ s'.Describes (t.remove (.queue name)) := by
  refine ⟨{ s with
    queues := s.queues.erase name
    bindings := s.bindings.filter fun b => b.queue != name },
    by rw [DurableState.apply, hd.contains_queue hpersistent], hd.of_removal h ?_ ?_ ?_⟩
  · intro other _
    rw [if_neg (by simp)]
  · intro other
    rw [NameMap.getElem?_erase]
    simp only [Removal.queue.injEq]
  · intro c
    rw [BindingSet.mem_filter, Removal.covers, beq_eq_false_iff_ne, bne_iff_ne]

/-- The state may know another exchange under a built-in name, but those are not removed. -/
theorem deleteExchange (hd : s.Describes t) (h : t.WellFormed) {name : String}
    (hr : t.Removable (.exchange name))
    (hdurable : (t.registry.exchange? name).any (fun x => x.definition.durable) = true) :
    ∃ s', s.apply (.deleteExchange name) = (true, s') ∧
      s'.Describes (t.remove (.exchange name)) := by
  obtain ⟨record, hfound, hremovable⟩ := hr
  have hcontains : s.exchanges.contains name = true := by
    have hbuiltin : Name.isBuiltin name = false := by
      rw [← h.builtin_iff name record hfound, hremovable]
    have hknown := hd.knowsExchange hdurable
    rwa [DurableState.knowsExchange, hbuiltin, Bool.or_false] at hknown
  refine ⟨{ s with
    exchanges := s.exchanges.erase name
    bindings := s.bindings.filter fun b => b.exchange != name },
    by rw [DurableState.apply, hcontains], hd.of_removal h ?_ ?_ ?_⟩
  · intro other _
    rw [NameMap.getElem?_erase]
    simp only [Removal.exchange.injEq]
  · intro other
    rw [if_neg (by simp)]
  · intro c
    rw [BindingSet.mem_filter, Removal.covers, beq_eq_false_iff_ne, bne_iff_ne]

/-- What is recorded of a removal is not passed over, and takes along the same bindings. -/
theorem remove_recorded (hd : s.Describes t) (h : t.WellFormed) {r : Removal}
    (hr : t.Removable r) {op : DurableOp} (hrecord : t.recordOf r = some op) :
    ∃ s', s.apply op = (true, s') ∧ s'.Describes (t.remove r) := by
  cases r with
  | binding b =>
    obtain ⟨hpersistent, hop⟩ := Option.ite_none_right_eq_some.1 hrecord
    injection hop with hop
    exact hop ▸ hd.unbind h hr hpersistent
  | queue name =>
    obtain ⟨hpersistent, hop⟩ := Option.ite_none_right_eq_some.1 hrecord
    injection hop with hop
    exact hop ▸ hd.deleteQueue h hpersistent
  | exchange name =>
    obtain ⟨hdurable, hop⟩ := Option.ite_none_right_eq_some.1 hrecord
    injection hop with hop
    exact hop ▸ hd.deleteExchange h hr hdurable

theorem remove (hd : s.Describes t) (h : t.WellFormed) {r : Removal} (hr : t.Removable r) :
    ∃ s', s.Replays (t.recordOf r).toList s' ∧ s'.Describes (t.remove r) := by
  cases hrecord : t.recordOf r with
  | none => exact ⟨s, .refl s, hd.remove_unrecorded h hrecord⟩
  | some op =>
    obtain ⟨s', happly, hs'⟩ := hd.remove_recorded h hr hrecord
    exact ⟨s', .single happly, hs'⟩

/-- One elementary change: the state folds in what it is recorded as, and passes nothing
over. -/
theorem step (hd : s.Describes t) (h : t.WellFormed) {ops : List DurableOp} {t' : Topology}
    (hstep : Step t ops t') : ∃ s', s.Replays ops s' ∧ s'.Describes t' := by
  cases hstep with
  | names hg => exact ⟨s, .refl s, hd.exchanges, hd.queues, hd.bindings⟩
  | attach hq => exact ⟨s, .refl s, hd.exchanges, hd.queues, hd.bindings⟩
  | detach hr => exact ⟨s, .refl s, hd.exchanges, hd.queues, hd.bindings⟩
  | exchange hnew => exact hd.addExchange h hnew
  | queue hnew => exact hd.addQueue h hnew
  | binding hq hx hb => exact hd.addBinding
  | removal hr => exact hd.remove h hr

/-- The relation along a run. -/
theorem steps (hd : s.Describes t) (h : t.WellFormed) {ops : List DurableOp} {t' : Topology}
    (hsteps : Steps t ops t') : ∃ s', s.Replays ops s' ∧ s'.Describes t' := by
  induction hsteps generalizing s with
  | refl t => exact ⟨s, .refl s, hd⟩
  | cons hstep _ ih =>
    obtain ⟨between, hbefore, hbetween⟩ := hd.step h hstep
    obtain ⟨s', hafter, hs'⟩ := ih hbetween (hstep.wellFormed h)
    exact ⟨s', hbefore.append hafter, hs'⟩

end Describes

end DurableState

namespace Topology

/-! ## §4. Restoring what is described -/

open DurableState

variable {nonce : UInt64} {s : DurableState}

/-- A binding of a closed state lasts in the topology restored from it. -/
theorem isPersistent_restore (h : s.Closed) {b : Binding} (hb : b ∈ s.bindings) :
    (restore nonce s).isPersistent b = true := by
  rw [isPersistent_iff]
  constructor
  · obtain ⟨x, hx, hdurable⟩ := exchange?_restore_of_known h (h.exchange_known b hb)
    rw [hx]
    exact hdurable
  · obtain ⟨q, hq, hpersistent⟩ := queue?_restore_of_known h (h.queue_known b hb)
    rw [hq]
    exact hpersistent

theorem describes_restore (h : s.Closed) : s.Describes (restore nonce s) := by
  refine ⟨?_, ?_, ?_⟩
  · intro name hname
    refine Option.ext ?_
    intro d
    rw [Option.filter_eq_some_iff, Option.map_eq_some_iff]
    constructor
    · intro hd
      refine ⟨⟨_, (exchange?_restore h).2 (Or.inr ⟨hname, d, hd, rfl⟩), rfl⟩, ?_⟩
      rw [h.exchange_filed name d hd]
      rfl
    · rintro ⟨⟨x, hx, rfl⟩, -⟩
      rcases (exchange?_restore h).1 hx with ⟨hmem, rfl⟩ | ⟨-, d, hd, rfl⟩
      · rw [(builtins_recorded x hmem).2.2.2] at hname
        cases hname
      · exact hd
  · intro name
    rw [definition_restore h name]
    cases hd : s.queues[name]? with
    | none => rfl
    | some d =>
      refine (Option.filter_some_pos ?_).symm
      rw [h.queue_filed name d hd]
      rfl
  · intro b
    rw [mem_bindings_restore]
    exact ⟨fun hb => ⟨hb, isPersistent_restore h hb⟩, And.left⟩

/-- A topology that is exactly the durable part of another, taken in afresh. -/
structure Recovers (t' t : Topology) : Prop where
  /-- The built-in exchanges, and the durable ones of the other. -/
  exchanges : ∀ name x, t'.registry.exchange? name = some x ↔
    x ∈ Exchange.builtins ∧ x.definition.name = name ∨
      ∃ live, t.registry.exchange? name = some live ∧ live.builtin = false ∧
        live.definition.durable = true ∧ x = { definition := live.definition }
  /-- The queues that are durable and not exclusive, owned by nobody. -/
  queues : ∀ name, (t'.registry.queue? name).map Queue.unnumbered =
    ((t.registry.queue? name).filter fun q => q.definition.durable && !q.definition.exclusive).map
      fun q => { definition := q.definition }
  /-- The bindings between two such. -/
  bindings : ∀ b, b ∈ t'.bindings ↔ b ∈ t.bindings ∧
    (t.registry.exchange? b.exchange).any (fun x => x.definition.durable) = true ∧
    (t.registry.queue? b.queue).any (fun q => q.definition.durable && !q.definition.exclusive) =
      true
  consumers : ∀ name, t'.references.consumersOf name = 0

/-- From a state that describes a topology its durable part is restored. -/
theorem recovers_restore (h : s.Closed) {t : Topology} (hwf : t.WellFormed) (hd : s.Describes t) :
    (restore nonce s).Recovers t := by
  refine ⟨?_, ?_, ?_, consumersOf_restore⟩
  · intro name x
    rw [exchange?_restore h]
    refine or_congr_right ?_
    constructor
    · rintro ⟨hname, d, hfound, rfl⟩
      rw [hd.exchanges name hname, Option.filter_eq_some_iff, Option.map_eq_some_iff] at hfound
      obtain ⟨⟨live, hlive, rfl⟩, hdurable⟩ := hfound
      exact ⟨live, hlive, (hwf.builtin_iff name live hlive).trans hname, hdurable, rfl⟩
    · rintro ⟨live, hlive, hbuiltin, hdurable, rfl⟩
      have hname : Name.isBuiltin name = false := by
        rw [← hwf.builtin_iff name live hlive, hbuiltin]
      refine ⟨hname, live.definition, ?_, rfl⟩
      rw [hd.exchanges name hname, hlive]
      exact Option.filter_some_pos hdurable
  · intro name
    rw [queue?_restore h, hd.queues]
    cases hq : t.registry.queue? name with
    | none => rfl
    | some q =>
      rw [Option.map_some, Option.filter_some, Option.filter_some]
      show Option.map _ (if q.definition.persistent = true then _ else _) =
        Option.map _ (if q.definition.persistent = true then _ else _)
      split
      next => rfl
      next => rfl
  · intro b
    rw [mem_bindings_restore, hd.bindings, isPersistent_iff]
    rfl

end Topology

end BrokerTopology
