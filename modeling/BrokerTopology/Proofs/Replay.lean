/-
  BrokerTopology.Proofs.Replay — a durable state and the log that stands
  for it.

  A log is folded into a state, and a state is written down as a log of
  its own.  The fold passes over a change that names nothing, so the two
  need not undo each other for every state; they do for a `Closed` one,
  whose records stand under their own names and whose bindings have both
  of their ends.  Every state that a log adds up to is closed, since the
  fold takes bindings out along with their ends.

  Replaying what a closed state is written down as therefore gives the
  state back, and passes nothing over.

  Main statements:
    * `look_foldl` — what is found after filing the entries of a list.
    * `closed_ofEntries` — what a log adds up to is closed.
    * `Closed.replays_toOps` — a closed state, written down and replayed,
      is the same again, and every change counts.
-/
import BrokerTopology.Durable.State
import Mathlib.Data.List.Nodup

namespace BrokerTopology

/-! ## §1. Listing and filing -/

namespace OrderedMap

variable {κ α : Type} {cmp : κ → κ → Ordering} [Std.TransCmp cmp]

/-- The values of a map, as the entries list them. -/
theorem values_eq (m : Std.ExtTreeMap κ α cmp) : m.values = m.toList.map Prod.snd := by
  obtain ⟨⟨m⟩⟩ := m
  induction m using Quotient.inductionOn with
  | h m =>
    obtain ⟨m, hm⟩ := m
    show m.values = (Std.DTreeMap.Internal.Impl.Const.toList m).map Prod.snd
    rw [Std.DTreeMap.Internal.Impl.values_eq_map_snd,
      Std.DTreeMap.Internal.Impl.Const.toList_eq_toListModel_map]
    simp

theorem nodup_toList (m : Std.ExtTreeMap κ α cmp) : m.toList.Nodup := by
  refine Std.ExtTreeMap.distinct_keys_toList.imp ?_
  intro p q hne heq
  exact hne (heq ▸ Std.ReflCmp.compare_self)

variable [Std.LawfulEqCmp cmp] {m : Std.ExtTreeMap κ α cmp} {k : κ} {a : α}

/-- What is put under a key stands in the place of what was there. -/
theorem values_insert (m : Std.ExtTreeMap κ α cmp) (k : κ) (a : α) :
    (m.insert k a).values.Perm (a :: (m.erase k).values) := by
  have hentries : (m.insert k a).toList.Perm ((k, a) :: (m.erase k).toList) := by
    refine (List.perm_ext_iff_of_nodup (nodup_toList _) ?_).2 ?_
    · refine List.nodup_cons.2 ⟨?_, nodup_toList _⟩
      rw [Std.ExtTreeMap.mem_toList_iff_getElem?_eq_some, Std.ExtTreeMap.getElem?_erase]
      simp
    · rintro ⟨k', a'⟩
      rw [List.mem_cons, Std.ExtTreeMap.mem_toList_iff_getElem?_eq_some,
        Std.ExtTreeMap.mem_toList_iff_getElem?_eq_some, Std.ExtTreeMap.getElem?_insert,
        Std.ExtTreeMap.getElem?_erase]
      by_cases hk : k = k'
      · subst hk
        simpa using eq_comm
      · simp [hk, Ne.symm hk]
  rw [values_eq, values_eq]
  exact hentries.map Prod.snd

theorem values_of_getElem? (h : m[k]? = some a) : m.values.Perm (a :: (m.erase k).values) := by
  have hsame : m.insert k a = m := by
    refine Std.ExtTreeMap.ext_getElem? ?_
    intro k'
    rw [Std.ExtTreeMap.getElem?_insert]
    by_cases hk : k = k'
    · subst hk
      simp [h]
    · simp [hk]
  have hperm := values_insert m k a
  rwa [hsame] at hperm

theorem erase_of_getElem? (h : m[k]? = none) : m.erase k = m := by
  refine Std.ExtTreeMap.ext_getElem? ?_
  intro k'
  rw [Std.ExtTreeMap.getElem?_erase]
  by_cases hk : k = k'
  · subst hk
    simp [h]
  · simp [hk]

end OrderedMap

theorem NameMap.mem_values {α : Type} {m : NameMap α} {a : α} :
    a ∈ m.values ↔ ∃ name : String, m[name]? = some a := by
  rw [OrderedMap.values_eq, List.mem_map]
  constructor
  · rintro ⟨⟨name, a⟩, hmem, rfl⟩
    exact ⟨name, Std.ExtTreeMap.mem_toList_iff_getElem?_eq_some.1 hmem⟩
  · rintro ⟨name, ha⟩
    exact ⟨(name, a), Std.ExtTreeMap.mem_toList_iff_getElem?_eq_some.2 ha, rfl⟩

/-- In a map that files everything under its own name, no two values have the same name. -/
theorem NameMap.nodup_values {α : Type} {m : NameMap α} {key : α → String}
    (hkey : ∀ name a, m[name]? = some a → key a = name) : (m.values.map key).Nodup := by
  have hkeys : m.values.map key = m.toList.map Prod.fst := by
    rw [OrderedMap.values_eq, List.map_map]
    refine List.map_congr_left ?_
    rintro ⟨name, a⟩ hmem
    exact hkey name a (Std.ExtTreeMap.mem_toList_iff_getElem?_eq_some.1 hmem)
  rw [hkeys]
  refine List.Pairwise.map _ ?_ Std.ExtTreeMap.distinct_keys_toList
  intro p q hne heq
  exact hne (heq ▸ Std.ReflCmp.compare_self)

theorem NameMap.getElem?_insert {α : Type} (m : NameMap α) (name other : String) (a : α) :
    (m.insert name a)[other]? = if name = other then some a else m[other]? := by
  simp [Std.ExtTreeMap.getElem?_insert]

theorem NameMap.getElem?_erase {α : Type} (m : NameMap α) (name other : String) :
    (m.erase name)[other]? = if name = other then none else m[other]? := by
  simp [Std.ExtTreeMap.getElem?_erase]

theorem BindingSet.mem_filter {s : BindingSet} {p : Binding → Bool} {b : Binding} :
    b ∈ s.filter p ↔ b ∈ s ∧ p b = true := by
  rw [Std.ExtTreeSet.mem_filter]
  simp

/-- What is found under a name after the entries of a list are filed, if no two of them have
the same name. -/
theorem look_foldl {σ α β : Type} (look : σ → String → Option β) (add : σ → α → σ)
    {key : α → String} {val : α → β}
    (hadd : ∀ s a name, look (add s a) name = if key a = name then some (val a) else look s name)
    {l : List α} (hnodup : (l.map key).Nodup) (s : σ) (name : String) (y : β) :
    look (l.foldl add s) name = some y ↔
      (∃ a ∈ l, key a = name ∧ val a = y) ∨ (∀ a ∈ l, key a ≠ name) ∧ look s name = some y := by
  induction l generalizing s with
  | nil => simp
  | cons a l ih =>
    rw [List.map_cons, List.nodup_cons] at hnodup
    obtain ⟨hnotin, hnodup⟩ := hnodup
    -- filed first, a value is there in the end unless a later one has its name, and none has
    rw [List.foldl_cons, ih hnodup, hadd]
    by_cases ha : key a = name
    · have hother : ∀ b ∈ l, key b ≠ name := by
        intro b hb hname
        exact hnotin (List.mem_map.2 ⟨b, hb, hname.trans ha.symm⟩)
      rw [if_pos ha]
      constructor
      · rintro (⟨b, hb, hname, -⟩ | ⟨-, hy⟩)
        · exact absurd hname (hother b hb)
        · injection hy with hy
          exact Or.inl ⟨a, List.mem_cons_self, ha, hy⟩
      · rintro (⟨b, hb, hname, hy⟩ | ⟨hnone, -⟩)
        · rcases List.mem_cons.1 hb with rfl | hb
          · exact Or.inr ⟨hother, by rw [hy]⟩
          · exact absurd hname (hother b hb)
        · exact absurd ha (hnone a List.mem_cons_self)
    · rw [if_neg ha]
      simp [ha]

/-- Filing the values of a map under their names makes the map. -/
theorem NameMap.foldl_insert_values {α : Type} {m : NameMap α} {key : α → String}
    (hkey : ∀ name a, m[name]? = some a → key a = name) :
    m.values.foldl (fun filed a => filed.insert (key a) a) (∅ : NameMap α) = m := by
  refine Std.ExtTreeMap.ext_getElem? ?_
  intro name
  refine Option.ext ?_
  intro a
  have hlook := look_foldl (fun (filed : NameMap α) name => filed[name]?) _
    (fun filed b other => NameMap.getElem?_insert filed (key b) other b)
    (NameMap.nodup_values hkey) ∅ name a
  refine hlook.trans ?_
  constructor
  · rintro (⟨b, hb, hname, rfl⟩ | ⟨-, hnone⟩)
    · obtain ⟨other, hother⟩ := NameMap.mem_values.1 hb
      rw [← hname, hkey other b hother]
      exact hother
    · simp at hnone
  · intro ha
    exact Or.inl ⟨a, NameMap.mem_values.2 ⟨name, ha⟩, hkey name a ha, rfl⟩

/-- The bindings of a set, put together again. -/
theorem BindingSet.foldl_insert_toList (s : BindingSet) :
    s.toList.foldl (fun filed b => filed.insert b) (∅ : BindingSet) = s := by
  have hmem : ∀ (bs : List Binding) (filed : BindingSet) (b : Binding),
      b ∈ bs.foldl (fun filed b => filed.insert b) filed ↔ b ∈ bs ∨ b ∈ filed := by
    intro bs
    induction bs with
    | nil =>
      intro filed b
      simp
    | cons c bs ih =>
      intro filed b
      rw [List.foldl_cons, ih, Std.ExtTreeSet.mem_insert, Std.LawfulEqCmp.compare_eq_iff_eq,
        List.mem_cons]
      constructor
      · rintro (hb | rfl | hb)
        · exact Or.inl (Or.inr hb)
        · exact Or.inl (Or.inl rfl)
        · exact Or.inr hb
      · rintro ((rfl | hb) | hb)
        · exact Or.inr (Or.inl rfl)
        · exact Or.inl hb
        · exact Or.inr (Or.inr hb)
  -- sets are equal that have the same members
  refine Std.ExtTreeSet.ext_mem ?_
  intro b
  rw [hmem, Std.ExtTreeSet.mem_toList]
  exact ⟨fun hb => hb.resolve_right Std.ExtTreeSet.not_mem_empty, Or.inl⟩

namespace DurableState

/-! ## §2. Closed states -/

/-- Records stand under their own names, and bindings have both of their ends. -/
structure Closed (s : DurableState) : Prop where
  exchange_filed : ∀ name d, s.exchanges[name]? = some d → d = exchangeDef name d.kind d.autoDelete
  queue_filed : ∀ name d, s.queues[name]? = some d → d = queueDef name d.autoDelete
  exchange_known : ∀ b ∈ s.bindings, s.knowsExchange b.exchange = true
  queue_known : ∀ b ∈ s.bindings, s.queues.contains b.queue = true

theorem Closed.exchange_name {s : DurableState} (h : s.Closed) {name : String} {d : ExchangeDef}
    (hd : s.exchanges[name]? = some d) : d.name = name :=
  congrArg ExchangeDef.name (h.exchange_filed name d hd)

theorem Closed.queue_name {s : DurableState} (h : s.Closed) {name : String} {d : QueueDef}
    (hd : s.queues[name]? = some d) : d.name = name :=
  congrArg QueueDef.name (h.queue_filed name d hd)

theorem closed_empty : empty.Closed where
  exchange_filed name d hd := by simp [empty] at hd
  queue_filed name d hd := by simp [empty] at hd
  exchange_known b hb := absurd hb Std.ExtTreeSet.not_mem_empty
  queue_known b hb := absurd hb Std.ExtTreeSet.not_mem_empty

theorem Closed.declareExchange {s : DurableState} (h : s.Closed) (name : String)
    (kind : ExchangeKind) (autoDelete : Bool) :
    (s.apply (.declareExchange name kind autoDelete)).2.Closed := by
  refine ⟨?_, h.queue_filed, ?_, h.queue_known⟩
  · intro other d hd
    replace hd := (NameMap.getElem?_insert s.exchanges name other _).symm.trans hd
    split at hd
    next hname =>
      injection hd with hd
      subst hd hname
      rfl
    next => exact h.exchange_filed other d hd
  · intro b hb
    have hknown := h.exchange_known b hb
    show ((s.exchanges.insert name _).contains b.exchange || Name.isBuiltin b.exchange) = true
    rw [Std.ExtTreeMap.contains_insert, Bool.or_assoc]
    exact Bool.or_eq_true_iff.2 (Or.inr hknown)

/-- An exchange goes with its bindings. -/
theorem Closed.deleteExchange {s : DurableState} (h : s.Closed) (name : String) :
    (s.apply (.deleteExchange name)).2.Closed := by
  refine ⟨?_, h.queue_filed, ?_, ?_⟩
  · intro other d hd
    replace hd := (NameMap.getElem?_erase s.exchanges name other).symm.trans hd
    split at hd
    next => cases hd
    next => exact h.exchange_filed other d hd
  · intro b hb
    obtain ⟨hb, hne⟩ := BindingSet.mem_filter.1 hb
    show ((s.exchanges.erase name).contains b.exchange || Name.isBuiltin b.exchange) = true
    have hother : (s.exchanges.erase name).contains b.exchange =
        s.exchanges.contains b.exchange := by
      simp [Ne.symm (bne_iff_ne.1 hne)]
    rw [hother]
    exact h.exchange_known b hb
  · intro b hb
    exact h.queue_known b (BindingSet.mem_filter.1 hb).1

theorem Closed.declareQueue {s : DurableState} (h : s.Closed) (name : String)
    (autoDelete : Bool) : (s.apply (.declareQueue name autoDelete)).2.Closed := by
  refine ⟨h.exchange_filed, ?_, h.exchange_known, ?_⟩
  · intro other d hd
    replace hd := (NameMap.getElem?_insert s.queues name other _).symm.trans hd
    split at hd
    next hname =>
      injection hd with hd
      subst hd hname
      rfl
    next => exact h.queue_filed other d hd
  · intro b hb
    show (s.queues.insert name _).contains b.queue = true
    rw [Std.ExtTreeMap.contains_insert, h.queue_known b hb, Bool.or_true]

/-- So does a queue. -/
theorem Closed.deleteQueue {s : DurableState} (h : s.Closed) (name : String) :
    (s.apply (.deleteQueue name)).2.Closed := by
  refine ⟨h.exchange_filed, ?_, ?_, ?_⟩
  · intro other d hd
    replace hd := (NameMap.getElem?_erase s.queues name other).symm.trans hd
    split at hd
    next => cases hd
    next => exact h.queue_filed other d hd
  · intro b hb
    exact h.exchange_known b (BindingSet.mem_filter.1 hb).1
  · intro b hb
    obtain ⟨hb, hne⟩ := BindingSet.mem_filter.1 hb
    show (s.queues.erase name).contains b.queue = true
    have hother : (s.queues.erase name).contains b.queue = s.queues.contains b.queue := by
      simp [Ne.symm (bne_iff_ne.1 hne)]
    rw [hother]
    exact h.queue_known b hb

/-- A binding counts only between two ends that are known. -/
theorem Closed.bind {s : DurableState} (h : s.Closed) (b : Binding) :
    (s.apply (.bind b)).2.Closed := by
  unfold DurableState.apply
  simp only
  split
  next hends =>
    obtain ⟨hexchange, hqueue⟩ := Bool.and_eq_true_iff.1 hends
    refine ⟨h.exchange_filed, h.queue_filed, ?_, ?_⟩
    · intro c hc
      rcases Std.ExtTreeSet.mem_insert.1 hc with heq | hc
      · rw [← Std.LawfulEqCmp.eq_of_compare heq]
        exact hexchange
      · exact h.exchange_known c hc
    · intro c hc
      rcases Std.ExtTreeSet.mem_insert.1 hc with heq | hc
      · rw [← Std.LawfulEqCmp.eq_of_compare heq]
        exact hqueue
      · exact h.queue_known c hc
  next => exact h

theorem Closed.unbind {s : DurableState} (h : s.Closed) (b : Binding) :
    (s.apply (.unbind b)).2.Closed := by
  refine ⟨h.exchange_filed, h.queue_filed, ?_, ?_⟩
  · intro c hc
    exact h.exchange_known c (Std.ExtTreeSet.mem_erase.1 hc).2
  · intro c hc
    exact h.queue_known c (Std.ExtTreeSet.mem_erase.1 hc).2

/-- Folding in a change keeps a state closed. -/
theorem Closed.apply {s : DurableState} (h : s.Closed) (op : DurableOp) :
    (s.apply op).2.Closed := by
  cases op with
  | declareExchange name kind autoDelete => exact h.declareExchange name kind autoDelete
  | deleteExchange name => exact h.deleteExchange name
  | declareQueue name autoDelete => exact h.declareQueue name autoDelete
  | deleteQueue name => exact h.deleteQueue name
  | bind b => exact h.bind b
  | unbind b => exact h.unbind b

theorem Closed.applyAll {s : DurableState} (h : s.Closed) (ops : List DurableOp) :
    (s.applyAll ops).Closed := by
  induction ops generalizing s with
  | nil => exact h
  | cons op ops ih => exact ih (h.apply op)

theorem closed_ofEntries (entries : List JournalEntry) : (ofEntries entries).Closed :=
  closed_empty.applyAll _

/-! ## §3. Writing down and replaying -/

theorem applied_append (s : DurableState) (before after : List DurableOp) :
    s.applied (before ++ after) = s.applied before ++ (s.applyAll before).applied after := by
  induction before generalizing s with
  | nil => rfl
  | cons op before ih =>
    show (s.apply op).1 :: (s.apply op).2.applied (before ++ after) = _
    rw [ih]
    rfl

/-- Changes that are folded in one after the other with nothing passed over. -/
def Replays (s : DurableState) (ops : List DurableOp) (s' : DurableState) : Prop :=
  s.applyAll ops = s' ∧ ∀ flag ∈ s.applied ops, flag = true

theorem Replays.refl (s : DurableState) : s.Replays [] s := by
  refine ⟨rfl, ?_⟩
  intro flag hflag
  cases hflag

theorem Replays.single {s s' : DurableState} {op : DurableOp} (h : s.apply op = (true, s')) :
    s.Replays [op] s' := by
  refine ⟨?_, ?_⟩
  · show (s.apply op).2 = s'
    rw [h]
  · intro flag hflag
    replace hflag : flag ∈ [(s.apply op).1] := hflag
    rw [h] at hflag
    exact List.mem_singleton.1 hflag

theorem Replays.append {s s' s'' : DurableState} {before after : List DurableOp}
    (h : s.Replays before s') (h' : s'.Replays after s'') :
    s.Replays (before ++ after) s'' := by
  obtain ⟨rfl, hflags⟩ := h
  obtain ⟨rfl, hflags'⟩ := h'
  refine ⟨applyAll_append s before after, ?_⟩
  intro flag hflag
  rw [applied_append] at hflag
  rcases List.mem_append.1 hflag with hflag | hflag
  · exact hflags flag hflag
  · exact hflags' flag hflag

theorem replays_declareExchanges (s : DurableState) (ds : List ExchangeDef)
    (hds : ∀ d ∈ ds, d = exchangeDef d.name d.kind d.autoDelete) :
    s.Replays (ds.map fun d => .declareExchange d.name d.kind d.autoDelete)
      { s with exchanges := ds.foldl (fun filed d => filed.insert d.name d) s.exchanges } := by
  induction ds generalizing s with
  | nil => exact .refl s
  | cons d ds ih =>
    have hd : s.apply (.declareExchange d.name d.kind d.autoDelete) =
        (true, { s with exchanges := s.exchanges.insert d.name d }) := by
      show (true, { s with exchanges := s.exchanges.insert d.name (exchangeDef ..) }) = _
      rw [← hds d List.mem_cons_self]
    exact (Replays.single hd).append (ih _ fun d' hd' => hds d' (List.mem_cons_of_mem _ hd'))

theorem replays_declareQueues (s : DurableState) (ds : List QueueDef)
    (hds : ∀ d ∈ ds, d = queueDef d.name d.autoDelete) :
    s.Replays (ds.map fun d => .declareQueue d.name d.autoDelete)
      { s with queues := ds.foldl (fun filed d => filed.insert d.name d) s.queues } := by
  induction ds generalizing s with
  | nil => exact .refl s
  | cons d ds ih =>
    have hd : s.apply (.declareQueue d.name d.autoDelete) =
        (true, { s with queues := s.queues.insert d.name d }) := by
      show (true, { s with queues := s.queues.insert d.name (queueDef ..) }) = _
      rw [← hds d List.mem_cons_self]
    exact (Replays.single hd).append (ih _ fun d' hd' => hds d' (List.mem_cons_of_mem _ hd'))

/-- Bindings count once both of their ends are declared. -/
theorem replays_binds (s : DurableState) (bs : List Binding)
    (hends : ∀ b ∈ bs, s.knowsExchange b.exchange = true ∧ s.queues.contains b.queue = true) :
    s.Replays (bs.map .bind)
      { s with bindings := bs.foldl (fun filed b => filed.insert b) s.bindings } := by
  induction bs generalizing s with
  | nil => exact .refl s
  | cons b bs ih =>
    obtain ⟨hexchange, hqueue⟩ := hends b List.mem_cons_self
    have hb : s.apply (.bind b) = (true, { s with bindings := s.bindings.insert b }) := by
      simp [DurableState.apply, hexchange, hqueue]
    exact (Replays.single hb).append (ih _ fun c hc => hends c (List.mem_cons_of_mem _ hc))

/-- A closed state, written down and replayed. -/
theorem Closed.replays_toOps {s : DurableState} (h : s.Closed) : empty.Replays s.toOps s := by
  -- exchanges before queues and both before bindings: a binding is only taken in between two
  -- that are known already
  have hexchanges : empty.Replays
      (s.exchanges.values.map fun d => .declareExchange d.name d.kind d.autoDelete)
      { exchanges := s.exchanges } := by
    have hreplays := replays_declareExchanges empty s.exchanges.values ?_
    · rwa [show empty.exchanges = ∅ from rfl,
        NameMap.foldl_insert_values fun _ _ => h.exchange_name] at hreplays
    · intro d hd
      obtain ⟨name, hname⟩ := NameMap.mem_values.1 hd
      rw [h.exchange_name hname]
      exact h.exchange_filed name d hname
  have hqueues : DurableState.Replays { exchanges := s.exchanges }
      (s.queues.values.map fun d => .declareQueue d.name d.autoDelete)
      { exchanges := s.exchanges, queues := s.queues } := by
    have hreplays := replays_declareQueues { exchanges := s.exchanges } s.queues.values ?_
    · rwa [NameMap.foldl_insert_values fun _ _ => h.queue_name] at hreplays
    · intro d hd
      obtain ⟨name, hname⟩ := NameMap.mem_values.1 hd
      rw [h.queue_name hname]
      exact h.queue_filed name d hname
  have hbindings : DurableState.Replays { exchanges := s.exchanges, queues := s.queues }
      (s.bindings.toList.map .bind) s := by
    have hreplays := replays_binds { exchanges := s.exchanges, queues := s.queues }
      s.bindings.toList ?_
    · rwa [BindingSet.foldl_insert_toList] at hreplays
    · intro b hb
      rw [Std.ExtTreeSet.mem_toList] at hb
      exact ⟨h.exchange_known b hb, h.queue_known b hb⟩
  exact (hexchanges.append hqueues).append hbindings

end DurableState

end BrokerTopology
