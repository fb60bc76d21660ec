/-
  BrokerTopology.Proofs.OneRemoval — what one removal of a cascade does.

  A binding, a queue and an exchange are removed in three ways.  A binding
  is taken out of the table and counted off.  A queue goes with the
  bindings that it still has, which are counted off one by one, and its
  consumers are forgotten.  An exchange goes with its bindings, and its
  count is forgotten.

  What is found afterwards is described alike: one name is gone, the
  bindings that the removal covers are gone, and the counts follow.  The
  invariant is read off that description, so it does not matter any more
  which of the three it was.

  Main statements:
    * `exchange?_remove`, `queue?_remove`, `mem_remove`,
      `bindingsOf_remove`, `consumersOf_remove` — what is found afterwards.
    * `WellFormed.remove` — the invariant is kept, as long as no built-in
      exchange is removed.
-/
import BrokerTopology.Proofs.TopologyInvariant

namespace BrokerTopology

/-! ## §1. Counting off -/

namespace ReferenceCounts

/-- Bindings counted off one by one: each exchange loses as many as it had among them. -/
theorem bindingsOf_foldl_bindingsRemoved (bs : List Binding) (r : ReferenceCounts) (x : String) :
    (bs.foldl (fun r b => r.bindingsRemoved b.exchange 1) r).bindingsOf x =
      r.bindingsOf x - bs.countP (fun b => b.exchange == x) := by
  induction bs generalizing r with
  | nil => simp
  | cons b bs ih =>
    rw [List.foldl_cons, ih, bindingsOf_bindingsRemoved, List.countP_cons]
    by_cases hx : b.exchange = x
    · simp only [hx, ↓reduceIte, beq_self_eq_true]
      omega
    · simp [hx]

/-- To count bindings off leaves the consumers alone. -/
theorem consumers_foldl_bindingsRemoved (bs : List Binding) (r : ReferenceCounts) :
    (bs.foldl (fun r b => r.bindingsRemoved b.exchange 1) r).consumers = r.consumers := by
  induction bs generalizing r with
  | nil => rfl
  | cons b bs ih =>
    rw [List.foldl_cons, ih]
    rfl

theorem consumersOf_forgetQueue (r : ReferenceCounts) (queue other : String) :
    (r.forgetQueue queue).consumersOf other =
      if queue = other then 0 else r.consumersOf other := by
  by_cases h : queue = other <;>
    simp [forgetQueue, consumersOf, NameCounts.countOf, Std.ExtTreeMap.getElem?_erase, h]

theorem bindingsOf_forgetExchange (r : ReferenceCounts) (exchange other : String) :
    (r.forgetExchange exchange).bindingsOf other =
      if exchange = other then 0 else r.bindingsOf other := by
  by_cases h : exchange = other <;>
    simp [forgetExchange, bindingsOf, NameCounts.countOf, Std.ExtTreeMap.getElem?_erase, h]

end ReferenceCounts

/-! ## §2. What goes with a removal -/

/-- Whether a binding goes with a removal. -/
def Removal.covers : Removal → Binding → Bool
  | .binding b, c => c == b
  | .queue name, c => c.queue == name
  | .exchange name, c => c.exchange == name

/-- What is not covered has neither of its ends removed. -/
theorem Removal.ne_of_covers_eq_false {r : Removal} {c : Binding} (h : r.covers c = false) :
    r ≠ .queue c.queue ∧ r ≠ .exchange c.exchange := by
  constructor
  · rintro rfl
    simp [covers] at h
  · rintro rfl
    simp [covers] at h

namespace Topology

/-- What a removal may name: a binding, a queue or an exchange that is there, but no exchange
that is built in. -/
def Removable (t : Topology) : Removal → Prop
  | .binding b => b ∈ t.bindings
  | .queue name => t.registry.hasQueue name = true
  | .exchange name => ∃ x, t.registry.exchange? name = some x ∧ x.builtin = false

/-- What becomes of a binding that is to be removed. -/
theorem remove_binding (t : Topology) (b : Binding) :
    ¬ b ∈ t.bindings ∧ t.remove (.binding b) = t ∨
      ∃ table, b ∈ t.bindings ∧ t.bindings.remove? b = some table ∧ t.remove (.binding b) =
        { t with bindings := table, references := t.references.bindingsRemoved b.exchange 1 } := by
  cases htable : t.bindings.remove? b with
  | none =>
    refine Or.inl ⟨?_, by simp only [remove, htable]⟩
    rw [BindingTable.mem_iff_contains, BindingTable.remove?_eq_none_iff.1 htable]
    exact Bool.false_ne_true
  | some table =>
    refine Or.inr ⟨table, ?_, rfl, by simp only [remove, htable]⟩
    by_contra hb
    have hfalse : t.bindings.contains b = false := Bool.eq_false_iff.2 hb
    rw [BindingTable.remove?_eq_none_iff.2 hfalse] at htable
    cases htable

/-- The exchanges, the queues and their consumers stay. -/
theorem remove_binding_rest (t : Topology) (b : Binding) :
    (t.remove (.binding b)).registry = t.registry ∧
      (t.remove (.binding b)).references.consumers = t.references.consumers := by
  obtain ⟨-, heq⟩ | ⟨table, -, -, heq⟩ := remove_binding t b
  · rw [heq]
    exact ⟨rfl, rfl⟩
  · rw [heq]
    exact ⟨rfl, rfl⟩

/-! ## §3. What is found afterwards -/

variable {t : Topology} {r : Removal}

theorem exchange?_remove {x : String} :
    (t.remove r).registry.exchange? x =
      if r = .exchange x then none else t.registry.exchange? x := by
  cases r with
  | binding b =>
    rw [(remove_binding_rest t b).1, if_neg (by simp)]
  | queue name => simp [remove, Registry.eraseQueue, Registry.exchange?]
  | exchange name => simp [remove, Registry.exchange?_eraseExchange]

theorem queue?_remove {q : String} :
    (t.remove r).registry.queue? q = if r = .queue q then none else t.registry.queue? q := by
  cases r with
  | binding b =>
    rw [(remove_binding_rest t b).1, if_neg (by simp)]
  | queue name => simp [remove, Registry.queue?_eraseQueue]
  | exchange name => simp [remove, Registry.eraseExchange, Registry.queue?]

theorem consistent_remove (h : t.bindings.Consistent) (r : Removal) :
    (t.remove r).bindings.Consistent := by
  cases r with
  | binding b =>
    obtain ⟨-, heq⟩ | ⟨table, -, htable, heq⟩ := remove_binding t b
    · rw [heq]
      exact h
    · rw [heq]
      exact h.remove? htable
  | queue name => exact h.removeQueue name
  | exchange name => exact h.removeExchange name

/-- A removal takes along the bindings that it covers. -/
theorem mem_remove (h : t.WellFormed) {c : Binding} :
    c ∈ (t.remove r).bindings ↔ c ∈ t.bindings ∧ r.covers c = false := by
  cases r with
  | binding b =>
    rw [Removal.covers, beq_eq_false_iff_ne]
    obtain ⟨hb, heq⟩ | ⟨table, -, htable, heq⟩ := remove_binding t b
    · rw [heq]
      constructor
      · intro hc
        exact ⟨hc, fun hsame => hb (hsame ▸ hc)⟩
      · exact And.left
    · rw [heq]
      exact BindingTable.mem_remove? htable
  | queue name =>
    rw [show (t.remove (.queue name)).bindings = (t.bindings.removeQueue name).2 from rfl,
      BindingTable.mem_removeQueue h.table, Removal.covers, beq_eq_false_iff_ne]
  | exchange name =>
    rw [show (t.remove (.exchange name)).bindings = (t.bindings.removeExchange name).2 from rfl,
      BindingTable.mem_removeExchange, Removal.covers, beq_eq_false_iff_ne]

/-- The bindings that a removal covers are counted off, exchange by exchange. -/
theorem bindingsOf_remove (h : t.WellFormed) (r : Removal) (x : String) :
    (t.remove r).references.bindingsOf x + (t.bindings.ofExchange x).countP r.covers =
      (t.bindings.ofExchange x).length := by
  have hle : (t.bindings.ofExchange x).countP r.covers ≤ (t.bindings.ofExchange x).length :=
    List.countP_le_length
  cases r with
  | binding b =>
    obtain ⟨hb, heq⟩ | ⟨table, hb, -, heq⟩ := remove_binding t b
    -- a binding that is not there is not counted off, and covers none of those that are
    · have hnone : (t.bindings.ofExchange x).count b = 0 := by
        refine List.count_eq_zero_of_not_mem ?_
        intro hbx
        exact hb (h.table.mem_ofExchange.1 hbx).1
      rw [heq, h.bindings_counted]
      show _ + (t.bindings.ofExchange x).count b = _
      rw [hnone, Nat.add_zero]
    · rw [heq]
      show (t.references.bindingsRemoved b.exchange 1).bindingsOf x +
        (t.bindings.ofExchange x).count b = _
      rw [ReferenceCounts.bindingsOf_bindingsRemoved, h.bindings_counted, h.bindings_counted]
      replace hle : (t.bindings.ofExchange x).count b ≤ (t.bindings.ofExchange x).length := hle
      split
      next hx =>
        have hone : (t.bindings.ofExchange x).count b = 1 :=
          List.count_eq_one_of_mem (t.bindings.nodup_ofExchange x)
            (h.table.mem_ofExchange.2 ⟨hb, hx⟩)
        rw [hx]
        omega
      next hx =>
        have hnone : (t.bindings.ofExchange x).count b = 0 := by
          refine List.count_eq_zero_of_not_mem ?_
          intro hbx
          exact hx (h.table.mem_ofExchange.1 hbx).2
        omega
  | queue name =>
    show (((t.bindings.ofQueue name).foldl (fun r b => r.bindingsRemoved b.exchange 1)
      t.references).forgetQueue name).bindingsOf x + _ = _
    -- the bindings of the queue are counted off one by one, over all exchanges
    have hforget : ∀ r : ReferenceCounts, (r.forgetQueue name).bindingsOf x = r.bindingsOf x :=
      fun r => rfl
    rw [hforget, ReferenceCounts.bindingsOf_foldl_bindingsRemoved, h.bindings_counted,
      h.table.countP_ofQueue]
    exact Nat.sub_add_cancel hle
  | exchange name =>
    have hofx : ∀ c ∈ t.bindings.ofExchange x, c.exchange = x :=
      fun c hc => (h.table.mem_ofExchange.1 hc).2
    show (t.references.forgetExchange name).bindingsOf x + _ = _
    rw [ReferenceCounts.bindingsOf_forgetExchange, h.bindings_counted]
    split
    next hname =>
      rw [Nat.zero_add, List.countP_eq_length]
      intro c hc
      exact beq_iff_eq.2 ((hofx c hc).trans hname.symm)
    next hname =>
      rw [List.countP_eq_zero.2, Nat.add_zero]
      intro c hc hcovers
      exact hname ((beq_iff_eq.1 hcovers).symm.trans (hofx c hc))

theorem consumersOf_remove {q : String} :
    (t.remove r).references.consumersOf q =
      if r = .queue q then 0 else t.references.consumersOf q := by
  cases r with
  | binding b =>
    rw [ReferenceCounts.consumersOf, (remove_binding_rest t b).2, if_neg (by simp),
      ReferenceCounts.consumersOf]
  | queue name =>
    show (((t.bindings.ofQueue name).foldl (fun r b => r.bindingsRemoved b.exchange 1)
      t.references).forgetQueue name).consumersOf q = _
    rw [ReferenceCounts.consumersOf_forgetQueue, ReferenceCounts.consumersOf,
      ReferenceCounts.consumers_foldl_bindingsRemoved]
    simp [ReferenceCounts.consumersOf]
  | exchange name =>
    rw [if_neg (by simp)]
    rfl

/-- The generated names and the numbers of queues are not given back. -/
theorem counters_remove :
    (t.remove r).registry.names = t.registry.names ∧
      (t.remove r).registry.lastIncarnation = t.registry.lastIncarnation := by
  cases r with
  | binding b =>
    rw [(remove_binding_rest t b).1]
    exact ⟨rfl, rfl⟩
  | queue name => exact ⟨rfl, rfl⟩
  | exchange name => exact ⟨rfl, rfl⟩

/-! ## §4. The invariant -/

namespace WellFormed

/-- The built-in exchanges outlive every removal that is allowed. -/
theorem builtin_not_removable (h : t.WellFormed) {x : Exchange} (hx : x ∈ Exchange.builtins) :
    ¬ t.Removable (.exchange x.definition.name) := by
  rintro ⟨y, hy, hfalse⟩
  rw [h.builtins_present x hx] at hy
  injection hy with hy
  subst hy
  rw [(builtins_recorded x hx).2.1] at hfalse
  cases hfalse

/-- One removal of a cascade. -/
theorem remove (h : t.WellFormed) (hr : t.Removable r) : (t.remove r).WellFormed := by
  have hconsistent := consistent_remove h.table r
  -- a binding that is left was there, and so are both of its ends
  have hleft : ∀ c ∈ (t.remove r).bindings,
      c ∈ t.bindings ∧ r ≠ .queue c.queue ∧ r ≠ .exchange c.exchange := by
    intro c hc
    obtain ⟨hc, hcovers⟩ := (mem_remove h).1 hc
    exact ⟨hc, Removal.ne_of_covers_eq_false hcovers⟩
  refine ⟨hconsistent, ?_, ?_, ?_, ?_, ?_, ?_, ?_, ?_, ?_⟩
  · intro c hc
    obtain ⟨hc, hne, -⟩ := hleft c hc
    obtain ⟨q, hq⟩ := Registry.hasQueue_iff.1 (h.queue_of_binding c hc)
    rw [Registry.hasQueue_iff, queue?_remove, if_neg hne]
    exact ⟨q, hq⟩
  · intro c hc
    obtain ⟨hc, -, hne⟩ := hleft c hc
    obtain ⟨x, hx⟩ := Registry.hasExchange_iff.1 (h.exchange_of_binding c hc)
    rw [Registry.hasExchange_iff, exchange?_remove, if_neg hne]
    exact ⟨x, hx⟩
  · intro x
    have hcounted := bindingsOf_remove h r x
    have hlost := BindingTable.length_of_lost (t.bindings.nodup_ofExchange x)
      ((t.remove r).bindings.nodup_ofExchange x)
      (h.table.mem_ofExchange_of_lost hconsistent (fun c => mem_remove h) x)
    omega
  · intro q hidle
    rw [Registry.hasQueue_eq_false_iff, queue?_remove] at hidle
    rw [consumersOf_remove]
    split
    next => rfl
    next hne =>
      rw [if_neg hne] at hidle
      exact h.consumers_idle q (Registry.hasQueue_eq_false_iff.2 hidle)
  · intro name x hx
    rw [exchange?_remove] at hx
    split at hx
    next => cases hx
    next => exact h.exchange_filed name x hx
  · intro name q hq
    rw [queue?_remove] at hq
    split at hq
    next => cases hq
    next => exact h.queue_filed name q hq
  · intro name q hq
    rw [queue?_remove] at hq
    split at hq
    next => cases hq
    next => exact h.owned_iff_exclusive name q hq
  · intro name x hx
    rw [exchange?_remove] at hx
    split at hx
    next => cases hx
    next => exact h.builtin_iff name x hx
  · intro x hx
    rw [exchange?_remove, if_neg]
    · exact h.builtins_present x hx
    · rintro rfl
      exact h.builtin_not_removable hx hr

end WellFormed

end Topology

end BrokerTopology
