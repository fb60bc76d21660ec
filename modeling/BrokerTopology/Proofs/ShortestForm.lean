/-
  BrokerTopology.Proofs.ShortestForm — a state is written down in as few
  changes as there can be.

  A log is compacted by writing down the state that it adds up to.  That
  the state comes back from it is a matter of what states there are: what
  changes add up to is closed, whatever the changes, and a closed state
  is written down with nothing that would be passed over.

  That it cannot be done in fewer changes is a matter of counting.  A
  state has so many exchanges, queues and bindings; a change adds one of
  them at most; and what is written down has one change for each.

  Main statements:
    * `size_apply_le` — one change adds one thing at most.
    * `length_toOps` — one change is written down for each thing.
    * `compacted_exactly` — both halves, for whatever a log holds.
-/
import BrokerTopology.Proofs.Replay

namespace BrokerTopology

theorem OrderedMap.length_values {κ α : Type} {cmp : κ → κ → Ordering} [Std.TransCmp cmp]
    (m : Std.ExtTreeMap κ α cmp) : m.values.length = m.size := by
  rw [values_eq, List.length_map, Std.ExtTreeMap.length_toList]

namespace DurableState

/-! ## §1. How much there is in a state -/

/-- The number of exchanges, queues and bindings. -/
def size (s : DurableState) : Nat := s.exchanges.size + s.queues.size + s.bindings.size

theorem length_toOps (s : DurableState) : s.toOps.length = s.size := by
  simp only [toOps, size, List.length_append, List.length_map, OrderedMap.length_values,
    Std.ExtTreeSet.length_toList]

/-- One change adds one thing at most. -/
theorem size_apply_le (s : DurableState) (op : DurableOp) : (s.apply op).2.size ≤ s.size + 1 := by
  cases op with
  | declareExchange name kind autoDelete =>
    have hexchanges := Std.ExtTreeMap.size_insert_le (t := s.exchanges) (k := name)
      (v := exchangeDef name kind autoDelete)
    simp only [apply, size]
    omega
  | deleteExchange name =>
    have hexchanges := Std.ExtTreeMap.size_erase_le (t := s.exchanges) (k := name)
    have hbindings := Std.ExtTreeSet.size_filter_le_size (t := s.bindings)
      (f := fun b => b.exchange != name)
    simp only [apply, size]
    omega
  | declareQueue name autoDelete =>
    have hqueues := Std.ExtTreeMap.size_insert_le (t := s.queues) (k := name)
      (v := queueDef name autoDelete)
    simp only [apply, size]
    omega
  | deleteQueue name =>
    have hqueues := Std.ExtTreeMap.size_erase_le (t := s.queues) (k := name)
    have hbindings := Std.ExtTreeSet.size_filter_le_size (t := s.bindings)
      (f := fun b => b.queue != name)
    simp only [apply, size]
    omega
  | bind b =>
    have hbindings := Std.ExtTreeSet.size_insert_le (t := s.bindings) (k := b)
    simp only [apply]
    split
    next =>
      simp only [size]
      omega
    next => exact Nat.le_succ _
  | unbind b =>
    have hbindings := Std.ExtTreeSet.size_erase_le (t := s.bindings) (k := b)
    simp only [apply, size]
    omega

/-- So as many changes add as many things at most. -/
theorem size_applyAll_le (s : DurableState) (ops : List DurableOp) :
    (s.applyAll ops).size ≤ s.size + ops.length := by
  induction ops generalizing s with
  | nil => exact Nat.le_refl _
  | cons op ops ih =>
    calc ((s.apply op).2.applyAll ops).size
        ≤ (s.apply op).2.size + ops.length := ih _
      _ ≤ s.size + 1 + ops.length := Nat.add_le_add_right (s.size_apply_le op) _
      _ = s.size + (op :: ops).length := by rw [List.length_cons]; omega

theorem size_empty : empty.size = 0 := rfl

/-! ## §2. Compaction -/

/-- Whatever changes are folded in from the start, also ones that name nothing, declare a thing
twice or meddle with built-in exchanges: the bindings of the state join a queue of the state and
an exchange of the state or a built-in one; what the state is written down as gives it back, with
nothing passed over; and no fewer changes add up to it. -/
theorem compacted_exactly (ops : List DurableOp) :
    let s := empty.applyAll ops
    (∀ b ∈ s.bindings, s.queues.contains b.queue = true ∧
        (s.exchanges.contains b.exchange = true ∨ Name.isBuiltin b.exchange = true)) ∧
      (empty.applyAll s.toOps = s ∧ ∀ flag ∈ empty.applied s.toOps, flag = true) ∧
      ∀ others, empty.applyAll others = s → s.toOps.length ≤ others.length := by
  intro s
  have hclosed : s.Closed := closed_empty.applyAll ops
  refine ⟨?_, hclosed.replays_toOps, ?_⟩
  · intro b hb
    exact ⟨hclosed.queue_known b hb, Bool.or_eq_true_iff.1 (hclosed.exchange_known b hb)⟩
  · intro others hothers
    calc s.toOps.length
        = (empty.applyAll others).size := by rw [length_toOps, hothers]
      _ ≤ empty.size + others.length := size_applyAll_le empty others
      _ = others.length := by rw [size_empty, Nat.zero_add]

end DurableState

end BrokerTopology
