/-
  BrokerTopology.Proofs.CanonicalForm — topologies that answer alike are
  equal.

  A count that is down to nothing is taken out of its map, and so is a
  bucket of an index that becomes empty.  So there is one way only to
  write a topology down: no map has an entry that says what the lack of
  an entry says, and the size kept beside a table is that of its listing.

  Every elementary change keeps that, and what is restored has it.  Two
  such topologies with the same records, bindings and consumers are then
  equal, and not only alike in what has been asked of them so far.

  Main statements:
    * `NameMap.Pruned.ext` — maps without idle entries.
    * `Topology.Step.canonical` — one elementary change.
    * `Server.lasting_canonical` — every run.
    * `Topology.Canonical.ext` — equality, up to the numbers of the queues.
-/
import BrokerTopology.Proofs.HostRuns

namespace BrokerTopology

/-! ## §1. Maps without idle entries -/

namespace NameMap

variable {α : Type} {m m' : NameMap α} {idle : α}

/-- No name has an entry for what it counts for without one. -/
def Pruned (m : NameMap α) (idle : α) : Prop := ∀ name : String, m[name]? ≠ some idle

theorem pruned_empty (idle : α) : Pruned (∅ : NameMap α) idle := by
  intro name
  simp

theorem Pruned.insert (h : Pruned m idle) (name : String) {a : α} (ha : a ≠ idle) :
    Pruned (m.insert name a) idle := by
  intro other
  rw [Std.ExtTreeMap.getElem?_insert]
  split
  next => exact fun heq => ha (Option.some.inj heq)
  next => exact h other

theorem Pruned.erase (h : Pruned m idle) (name : String) : Pruned (m.erase name) idle := by
  intro other
  rw [Std.ExtTreeMap.getElem?_erase]
  split
  next => exact nofun
  next => exact h other

/-- Such maps are told apart by what the names count for. -/
theorem Pruned.ext (h : Pruned m idle) (h' : Pruned m' idle)
    (hsame : ∀ name : String, m[name]?.getD idle = m'[name]?.getD idle) : m = m' := by
  refine Std.ExtTreeMap.ext_getElem? fun name => ?_
  have hname := h name
  have hname' := h' name
  have hsame := hsame name
  cases hm : m[name]? with
  | none =>
    cases hm' : m'[name]? with
    | none => rfl
    | some b =>
      rw [hm, hm', Option.getD_none, Option.getD_some] at hsame
      exact absurd (hm'.trans (congrArg some hsame.symm)) hname'
  | some a =>
    cases hm' : m'[name]? with
    | none =>
      rw [hm, hm', Option.getD_none, Option.getD_some] at hsame
      exact absurd (hm.trans (congrArg some hsame)) hname
    | some b =>
      rw [hm, hm', Option.getD_some, Option.getD_some] at hsame
      rw [hsame]

end NameMap

/-! ## §2. Counts -/

theorem NameCounts.pruned_set {counts : NameCounts} (h : NameMap.Pruned counts 0) (name : String)
    (n : Nat) : NameMap.Pruned (counts.set name n) 0 := by
  unfold NameCounts.set
  split
  next => exact h.erase name
  next hn => exact h.insert name hn

namespace ReferenceCounts

/-- A name without references has no entry. -/
structure Canonical (r : ReferenceCounts) : Prop where
  consumers : NameMap.Pruned r.consumers 0
  bindings : NameMap.Pruned r.bindings 0

namespace Canonical

variable {r r' : ReferenceCounts}

theorem consumerAdded (h : r.Canonical) (queue : String) : (r.consumerAdded queue).Canonical :=
  ⟨NameCounts.pruned_set h.consumers _ _, h.bindings⟩

theorem consumerRemoved? (h : r.Canonical) {queue : String} {n : Nat}
    (hr : r.consumerRemoved? queue = some (n, r')) : r'.Canonical := by
  unfold ReferenceCounts.consumerRemoved? at hr
  split at hr
  next => cases hr
  next =>
    injection hr with hr
    injection hr with _ hr
    subst hr
    exact ⟨NameCounts.pruned_set h.consumers _ _, h.bindings⟩

theorem bindingAdded (h : r.Canonical) (exchange : String) : (r.bindingAdded exchange).Canonical :=
  ⟨h.consumers, NameCounts.pruned_set h.bindings _ _⟩

theorem bindingsRemoved (h : r.Canonical) (exchange : String) (n : Nat) :
    (r.bindingsRemoved exchange n).Canonical :=
  ⟨h.consumers, NameCounts.pruned_set h.bindings _ _⟩

theorem foldl_bindingsRemoved (h : r.Canonical) (bs : List Binding) :
    (bs.foldl (fun r b => r.bindingsRemoved b.exchange 1) r).Canonical := by
  induction bs generalizing r with
  | nil => exact h
  | cons b bs ih => exact ih (h.bindingsRemoved b.exchange 1)

theorem forgetQueue (h : r.Canonical) (queue : String) : (r.forgetQueue queue).Canonical :=
  ⟨h.consumers.erase queue, h.bindings⟩

theorem forgetExchange (h : r.Canonical) (exchange : String) :
    (r.forgetExchange exchange).Canonical :=
  ⟨h.consumers, h.bindings.erase exchange⟩

theorem ext (h : r.Canonical) (h' : r'.Canonical)
    (hconsumers : ∀ queue, r.consumersOf queue = r'.consumersOf queue)
    (hbindings : ∀ exchange, r.bindingsOf exchange = r'.bindingsOf exchange) : r = r' := by
  obtain ⟨consumers, bindings⟩ := r
  obtain ⟨consumers', bindings'⟩ := r'
  obtain rfl : consumers = consumers' := h.consumers.ext h'.consumers hconsumers
  obtain rfl : bindings = bindings' := h.bindings.ext h'.bindings hbindings
  rfl

end Canonical

end ReferenceCounts

/-! ## §3. Tables -/

namespace BindingIndex

variable {index : BindingIndex}

theorem pruned_file (h : NameMap.Pruned index ∅) (name : String) (b : Binding) :
    NameMap.Pruned (index.file name b) ∅ := by
  refine h.insert name fun hempty => ?_
  -- the bucket has at least the binding that is filed
  have hb : b ∈ (index.bucket name).insert b := Std.ExtTreeSet.mem_insert_self
  rw [hempty] at hb
  exact Std.ExtTreeSet.not_mem_empty hb

theorem pruned_unfile (h : NameMap.Pruned index ∅) (name : String) (b : Binding) :
    NameMap.Pruned (index.unfile name b) ∅ := by
  unfold unfile
  simp only
  split
  next => exact h.erase name
  next hrest => exact h.insert name fun hempty => hrest (Std.ExtTreeSet.isEmpty_iff.2 hempty)

theorem pruned_foldl_unfile (h : NameMap.Pruned index ∅) (f : Binding → String)
    (bs : List Binding) :
    NameMap.Pruned (bs.foldl (fun (index : BindingIndex) b => index.unfile (f b) b) index) ∅ := by
  induction bs generalizing index with
  | nil => exact h
  | cons b bs ih => exact ih (pruned_unfile h (f b) b)

end BindingIndex

namespace BindingTable

/-- No bucket is empty, and the size is right. -/
structure Canonical (t : BindingTable) : Prop where
  byExchange : NameMap.Pruned t.byExchange ∅
  byQueue : NameMap.Pruned t.byQueue ∅
  size : t.size = t.toList.length

theorem nodup_listed (t : BindingTable) : t.toList.Nodup := BindingSet.nodup_toList t.toSet

/-- How many bindings a table has left that lost some. -/
theorem Consistent.length_toList_of_lost {t t' : BindingTable} (h : t.Consistent)
    (h' : t'.Consistent) {p : Binding → Bool} (hmem : ∀ c, c ∈ t' ↔ c ∈ t ∧ p c = false) :
    t'.toList.length + t.toList.countP p = t.toList.length := by
  refine length_of_lost t.nodup_listed t'.nodup_listed fun c => ?_
  rw [h'.mem_toList, h.mem_toList, hmem]

/-- A queue lists as many bindings as the table has of it. -/
theorem Consistent.length_ofQueue {t : BindingTable} (h : t.Consistent) (q : String) :
    (t.ofQueue q).length = t.toList.countP (fun b => b.queue == q) := by
  rw [List.countP_eq_length_filter]
  refine List.Perm.length_eq ((List.perm_ext_iff_of_nodup (t.nodup_ofQueue q)
    (t.nodup_listed.filter _)).2 fun b => ?_)
  rw [List.mem_filter, h.mem_toList, h.mem_ofQueue, beq_iff_eq]

namespace Canonical

variable {t t' : BindingTable}

theorem insert (h : t.Canonical) (hc : t.Consistent) (b : Binding) : (t.insert b).2.Canonical := by
  have hmore : ¬ b ∈ t → (t.insert b).2.toList.Perm (b :: t.toList) := by
    intro hb
    have hnodup : (b :: t.toList).Nodup :=
      List.nodup_cons.2 ⟨fun hmem => hb (hc.mem_toList.1 hmem), t.nodup_listed⟩
    refine (List.perm_ext_iff_of_nodup (nodup_listed _) hnodup).2 fun c => ?_
    rw [(hc.insert b).mem_toList, mem_insert, List.mem_cons, hc.mem_toList]
  -- a binding that is there already leaves the table as it is
  unfold BindingTable.insert at hmore ⊢
  split at hmore
  next hb =>
    rw [if_pos hb]
    exact h
  next hb =>
    rw [if_neg hb]
    refine ⟨BindingIndex.pruned_file h.byExchange _ _, BindingIndex.pruned_file h.byQueue _ _, ?_⟩
    rw [(hmore hb).length_eq, List.length_cons, ← h.size]

theorem remove? (h : t.Canonical) (hc : t.Consistent) {b : Binding}
    (ht : t.remove? b = some t') : t'.Canonical := by
  have hlost := hc.length_toList_of_lost (hc.remove? ht) (p := fun c => c == b) fun c => by
    rw [mem_remove? ht, beq_eq_false_iff_ne]
  unfold BindingTable.remove? at ht
  split at ht
  next hb =>
    have hone : t.toList.count b = 1 :=
      List.count_eq_one_of_mem t.nodup_listed (hc.mem_toList.2 hb)
    injection ht with ht
    subst ht
    refine ⟨BindingIndex.pruned_unfile h.byExchange _ _, BindingIndex.pruned_unfile h.byQueue _ _,
      ?_⟩
    rw [← List.count, hone, ← h.size] at hlost
    exact Nat.sub_eq_of_eq_add hlost.symm
  next => cases ht

theorem removeQueue (h : t.Canonical) (hc : t.Consistent) (q : String) :
    (t.removeQueue q).2.Canonical := by
  -- as many are taken off the size as the queue lists, and those are the ones that are gone
  have hlost := hc.length_toList_of_lost (hc.removeQueue q) (p := fun c => c.queue == q)
    fun c => by rw [mem_removeQueue hc, beq_eq_false_iff_ne]
  rw [← hc.length_ofQueue, ← h.size] at hlost
  exact ⟨BindingIndex.pruned_foldl_unfile h.byExchange Binding.exchange _, h.byQueue.erase q,
    Nat.sub_eq_of_eq_add hlost.symm⟩

theorem removeExchange (h : t.Canonical) (hc : t.Consistent) (x : String) :
    (t.removeExchange x).2.Canonical := by
  have hlost := hc.length_toList_of_lost (hc.removeExchange x) (p := fun c => c.exchange == x)
    fun c => by rw [mem_removeExchange, beq_eq_false_iff_ne]
  rw [← hc.length_ofExchange, ← h.size] at hlost
  exact ⟨h.byExchange.erase x, BindingIndex.pruned_foldl_unfile h.byQueue Binding.queue _,
    Nat.sub_eq_of_eq_add hlost.symm⟩

/-- Canonical tables with the same bindings are equal. -/
theorem ext (h : t.Canonical) (h' : t'.Canonical) (hc : t.Consistent) (hc' : t'.Consistent)
    (hmem : ∀ b, b ∈ t ↔ b ∈ t') : t = t' := by
  have hexchange : t.byExchange = t'.byExchange := by
    refine h.byExchange.ext h'.byExchange fun x => Std.ExtTreeSet.ext_mem fun b => ?_
    have hlisted : b ∈ t.ofExchange x ↔ b ∈ t'.ofExchange x := by
      rw [hc.mem_ofExchange, hc'.mem_ofExchange, hmem]
    rwa [ofExchange, ofExchange, Std.ExtTreeSet.mem_toList, Std.ExtTreeSet.mem_toList] at hlisted
  have hqueue : t.byQueue = t'.byQueue := by
    refine h.byQueue.ext h'.byQueue fun q => Std.ExtTreeSet.ext_mem fun b => ?_
    have hlisted : b ∈ t.ofQueue q ↔ b ∈ t'.ofQueue q := by
      rw [hc.mem_ofQueue, hc'.mem_ofQueue, hmem]
    rwa [ofQueue, ofQueue, Std.ExtTreeSet.mem_toList, Std.ExtTreeSet.mem_toList] at hlisted
  have hsize : t.size = t'.size := by
    rw [h.size, h'.size]
    -- the listing is of one index alone
    exact congrArg (fun index => List.length (BindingTable.toList ⟨index, ∅, 0⟩)) hexchange
  obtain ⟨byExchange, byQueue, size⟩ := t
  obtain rfl : byExchange = t'.byExchange := hexchange
  obtain rfl : byQueue = t'.byQueue := hqueue
  obtain rfl : size = t'.size := hsize
  rfl

end Canonical

end BindingTable

/-! ## §4. Topologies -/

namespace Topology

/-- Nothing is written down that says nothing. -/
structure Canonical (t : Topology) : Prop where
  references : t.references.Canonical
  bindings : t.bindings.Canonical

variable {t t' : Topology}

theorem canonical_initial (nonce : UInt64) : (initial nonce).Canonical where
  references := ⟨NameMap.pruned_empty 0, NameMap.pruned_empty 0⟩
  bindings := ⟨NameMap.pruned_empty ∅, NameMap.pruned_empty ∅, rfl⟩

theorem Canonical.addBinding (h : t.Canonical) (hc : t.bindings.Consistent) (b : Binding) :
    (t.addBinding b).Canonical := by
  have hinsert := h.bindings.insert hc b
  unfold Topology.addBinding
  split
  next => exact h
  next heq =>
    rw [heq] at hinsert
    exact ⟨h.references.bindingAdded b.exchange, hinsert⟩

theorem Canonical.remove (h : t.Canonical) (hc : t.bindings.Consistent) (r : Removal) :
    (t.remove r).Canonical := by
  cases r with
  | binding b =>
    obtain ⟨-, heq⟩ | ⟨table, -, htable, heq⟩ := remove_binding t b
    · rwa [heq]
    · rw [heq]
      exact ⟨h.references.bindingsRemoved b.exchange 1, h.bindings.remove? hc htable⟩
  | queue name =>
    exact ⟨(h.references.foldl_bindingsRemoved _).forgetQueue name,
      h.bindings.removeQueue hc name⟩
  | exchange name =>
    exact ⟨h.references.forgetExchange name, h.bindings.removeExchange hc name⟩

theorem Step.canonical {ops : List DurableOp} (hwf : t.WellFormed) (h : t.Canonical)
    (hstep : Step t ops t') : t'.Canonical := by
  cases hstep with
  | names hg => exact ⟨h.references, h.bindings⟩
  | attach hq => exact ⟨h.references.consumerAdded _, h.bindings⟩
  | detach hr => exact ⟨h.references.consumerRemoved? hr, h.bindings⟩
  | exchange hnew => exact ⟨h.references, h.bindings⟩
  | queue hnew => exact ⟨h.references, h.bindings⟩
  | binding hq hx hb => exact h.addBinding hwf.table _
  | removal hr => exact h.remove hwf.table _

theorem Steps.canonical {ops : List DurableOp} (hwf : t.WellFormed) (h : t.Canonical)
    (hsteps : Steps t ops t') : t'.Canonical := by
  induction hsteps with
  | refl t => exact h
  | cons hstep _ ih => exact ih (hstep.wellFormed hwf) (hstep.canonical hwf h)

theorem canonical_restore (nonce : UInt64) (s : DurableState) : (restore nonce s).Canonical := by
  -- exchanges and queues are taken in before the first binding
  have hbindings : ∀ (bs : List Binding) (t : Topology), t.Canonical → t.bindings.Consistent →
      (bs.foldl Topology.addBinding t).Canonical := by
    intro bs
    induction bs with
    | nil => exact fun t h _ => h
    | cons b bs ih =>
      intro t h hc
      refine ih _ (h.addBinding hc b) ?_
      have hinsert := hc.insert b
      unfold Topology.addBinding
      split
      next => exact hc
      next heq => rwa [heq] at hinsert
  obtain ⟨-, hexchangeBindings, hexchangeCounts⟩ :=
    foldl_addExchange_rest (initial nonce) (restoredExchanges s)
  obtain ⟨-, hqueueBindings, hqueueCounts⟩ :=
    foldl_addQueue_rest ((restoredExchanges s).foldl addExchange (initial nonce)) s.queues.values
  unfold restoredExchanges at hexchangeBindings hexchangeCounts hqueueBindings hqueueCounts
  refine hbindings s.bindings.toList _ ⟨?_, ?_⟩ ?_
  · rw [hqueueCounts, hexchangeCounts]
    exact (canonical_initial nonce).references
  · rw [hqueueBindings, hexchangeBindings]
    exact (canonical_initial nonce).bindings
  · rw [hqueueBindings, hexchangeBindings]
    exact BindingTable.consistent_empty

end Topology

/-! ## §5. Equality -/

/-- A registry apart from the numbers that its queues were taken in under. -/
def Registry.unnumbered (r : Registry) : Registry :=
  { r with queues := r.queues.map fun _ q => q.unnumbered }

namespace Topology

variable {t t' : Topology}

/-- So a topology. -/
def unnumbered (t : Topology) : Topology := { t with registry := t.registry.unnumbered }

/-- Canonical topologies with the same records, bindings and consumers are equal up to these
numbers. -/
theorem Canonical.ext (h : t.Canonical) (h' : t'.Canonical) (hwf : t.WellFormed)
    (hwf' : t'.WellFormed) (hexchange : ∀ x, t.registry.exchange? x = t'.registry.exchange? x)
    (hqueue : ∀ q, (t.registry.queue? q).map Queue.unnumbered =
      (t'.registry.queue? q).map Queue.unnumbered)
    (hnames : t.registry.names = t'.registry.names)
    (hincarnation : t.registry.lastIncarnation = t'.registry.lastIncarnation)
    (hconsumers : ∀ q, t.references.consumersOf q = t'.references.consumersOf q)
    (hbinding : ∀ b, b ∈ t.bindings ↔ b ∈ t'.bindings) : t.unnumbered = t'.unnumbered := by
  have hbindings := h.bindings.ext h'.bindings hwf.table hwf'.table hbinding
  -- how many bindings an exchange has is told by the table
  have hreferences := h.references.ext h'.references hconsumers fun x => by
    rw [hwf.bindings_counted, hwf'.bindings_counted, hbindings]
  have hexchanges : t.registry.exchanges = t'.registry.exchanges :=
    Std.ExtTreeMap.ext_getElem? hexchange
  have hqueues : (t.registry.queues.map fun _ q => q.unnumbered) =
      t'.registry.queues.map fun _ q => q.unnumbered := by
    refine Std.ExtTreeMap.ext_getElem? fun q => ?_
    rw [Std.ExtTreeMap.getElem?_map, Std.ExtTreeMap.getElem?_map]
    exact hqueue q
  simp only [unnumbered, Registry.unnumbered, hexchanges, hqueues, hnames, hincarnation, hbindings,
    hreferences]

end Topology

/-- In every run topologies are canonical. -/
theorem Server.lasting_canonical {medium handle : Type} [Medium medium handle] :
    Server.Lasting medium fun s : Server handle =>
      s.broker.live.topology.WellFormed ∧ s.broker.live.topology.Canonical :=
  Server.lasting_of_steps (fun nonce s _ => Topology.canonical_restore nonce s)
    fun hwf h hsteps => hsteps.canonical hwf h

end BrokerTopology
