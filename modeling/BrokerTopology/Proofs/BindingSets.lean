/-
  BrokerTopology.Proofs.BindingSets — a binding table is a set of
  bindings.

  What is asked of a table is answered from one of its indexes, and what
  changes it changes both, so an index that was forgotten would show much
  later, and in another answer.  Here the table is set against a finite
  set that the same edits are made to.  `Represents` ties the two, one
  lemma says that an edit keeps them tied, and from the tie alone every
  answer follows: listings are the sorted listings of parts of the set,
  the size is that of the set, and what is taken off the size is never
  more than it.

  Main statements:
    * `Represents.edit` — one edit, on the table and on the set.
    * `Represents.answers` — what a table that stands for a set answers.
    * `editAll_answers` — after any edits of the empty table.
-/
import BrokerTopology.Proofs.CanonicalForm
import Mathlib.Data.Finset.Card

namespace BrokerTopology

/-! ## §1. Sorted listings -/

/-- A list that has the members of a finite set, in ascending order and so each of them once. -/
structure Lists {α : Type} [Ord α] (l : List α) (s : Finset α) : Prop where
  ascending : l.Pairwise fun a b => compare a b = .lt
  mem : ∀ a, a ∈ l ↔ a ∈ s

section

variable {α : Type} [Ord α] [Std.TransOrd α] {l : List α} {s : Finset α}

theorem Lists.nodup (h : Lists l s) : l.Nodup := by
  refine h.ascending.imp ?_
  rintro a _ hlt rfl
  have hself : compare a a = .eq := Std.ReflCmp.compare_self
  rw [hself] at hlt
  cases hlt

theorem Lists.length_eq (h : Lists l s) : l.length = s.card := by
  classical
  rw [← List.toFinset_card_of_nodup h.nodup]
  congr 1
  ext a
  rw [List.mem_toFinset, h.mem]

/-- An ordered tree lists the finite set that has its members. -/
theorem lists_toList [Std.LawfulEqOrd α] {tree : Std.ExtTreeSet α compare}
    (h : ∀ a, a ∈ tree ↔ a ∈ s) : Lists tree.toList s where
  ascending := Std.ExtTreeSet.ordered_toList
  mem a := by rw [Std.ExtTreeSet.mem_toList, h]

omit [Std.TransOrd α] in
/-- The names that the members of a listed set have, put in order. -/
theorem Lists.names (h : Lists l s) (name : α → String) :
    Lists (Std.ExtTreeSet.ofList (l.map name) compare).toList (s.image name) := by
  refine lists_toList fun a => ?_
  rw [Std.ExtTreeSet.mem_ofList, List.contains_iff_mem, List.mem_map, Finset.mem_image]
  simp only [h.mem]

end

namespace BindingTable

/-! ## §2. Edits -/

/-- What can be done to a table. -/
inductive Edit where
  | insert (b : Binding)
  | remove (b : Binding)
  | removeQueue (queue : String)
  | removeExchange (exchange : String)

/-- The table after an edit.  To remove a binding that is not there leaves it as it is. -/
def edit (t : BindingTable) : Edit → BindingTable
  | .insert b => (t.insert b).2
  | .remove b => (t.remove? b).getD t
  | .removeQueue queue => (t.removeQueue queue).2
  | .removeExchange exchange => (t.removeExchange exchange).2

/-- The table after edits, one after the other. -/
def editAll (t : BindingTable) (edits : List Edit) : BindingTable := edits.foldl edit t

/-- What an edit makes of a set of bindings. -/
def Edit.ofSet (s : Finset Binding) : Edit → Finset Binding
  | .insert b => Insert.insert b s
  | .remove b => s.erase b
  | .removeQueue queue => s.filter fun b => b.queue ≠ queue
  | .removeExchange exchange => s.filter fun b => b.exchange ≠ exchange

/-- What edits, one after the other, make of a set of bindings. -/
def Edit.allOfSet (s : Finset Binding) (edits : List Edit) : Finset Binding :=
  edits.foldl Edit.ofSet s

/-- A table that stands for a set: it has the bindings of the set, in both indexes, and is
written down in the one way that there is. -/
structure Represents (t : BindingTable) (s : Finset Binding) : Prop where
  consistent : t.Consistent
  canonical : t.Canonical
  mem : ∀ b, b ∈ t ↔ b ∈ s

theorem represents_empty : empty.Represents ∅ where
  consistent := consistent_empty
  canonical := ⟨NameMap.pruned_empty ∅, NameMap.pruned_empty ∅, rfl⟩
  mem b := by simp [not_mem_empty b]

variable {t : BindingTable} {s : Finset Binding}

/-- A binding that is not there cannot be removed, and nothing changes. -/
theorem edit_remove_of_not_mem {b : Binding} (h : ¬ b ∈ t) : t.edit (.remove b) = t := by
  have hnone : t.remove? b = none := remove?_eq_none_iff.2 (by simpa [mem_iff_contains] using h)
  rw [edit, hnone, Option.getD_none]

/-- One edit of the table is the same edit of the set. -/
theorem Represents.edit (h : t.Represents s) (e : Edit) : (t.edit e).Represents (e.ofSet s) := by
  obtain ⟨hconsistent, hcanonical, hmem⟩ := h
  cases e with
  | insert b =>
    refine ⟨hconsistent.insert b, hcanonical.insert hconsistent b, fun c => ?_⟩
    rw [BindingTable.edit, mem_insert, hmem, Edit.ofSet, Finset.mem_insert]
  | remove b =>
    by_cases hb : b ∈ t
    · obtain ⟨t', ht'⟩ : ∃ t', t.remove? b = some t' := by
        simp [BindingTable.remove?, mem_iff_contains.1 hb]
      have hedit : t.edit (.remove b) = t' := by rw [BindingTable.edit, ht', Option.getD_some]
      rw [hedit]
      refine ⟨hconsistent.remove? ht', hcanonical.remove? hconsistent ht', fun c => ?_⟩
      rw [mem_remove? ht', hmem, Edit.ofSet, Finset.mem_erase, and_comm]
    · rw [edit_remove_of_not_mem hb, Edit.ofSet, Finset.erase_eq_of_notMem (mt (hmem b).2 hb)]
      exact ⟨hconsistent, hcanonical, hmem⟩
  | removeQueue queue =>
    refine ⟨hconsistent.removeQueue queue, hcanonical.removeQueue hconsistent queue, fun c => ?_⟩
    rw [BindingTable.edit, mem_removeQueue hconsistent, hmem, Edit.ofSet, Finset.mem_filter]
  | removeExchange exchange =>
    refine ⟨hconsistent.removeExchange exchange, hcanonical.removeExchange hconsistent exchange,
      fun c => ?_⟩
    rw [BindingTable.edit, mem_removeExchange, hmem, Edit.ofSet, Finset.mem_filter]

theorem Represents.editAll (h : t.Represents s) (edits : List Edit) :
    (t.editAll edits).Represents (Edit.allOfSet s edits) := by
  induction edits generalizing t s with
  | nil => exact h
  | cons e edits ih => exact ih (h.edit e)

/-! ## §3. Answers -/

/-- A table answers whatever is asked of it from a set of bindings. -/
structure AnswersFrom (t : BindingTable) (s : Finset Binding) : Prop where
  /-- Whether a binding is new. -/
  insert : ∀ b, (t.insert b).1 = decide (b ∉ s)
  /-- One that is not there cannot be removed. -/
  remove : ∀ b, t.remove? b = none ↔ b ∉ s
  /-- And then nothing changes. -/
  remove_absent : ∀ b, b ∉ s → t.edit (.remove b) = t
  removeQueue : ∀ q, Lists (t.removeQueue q).1 (s.filter fun b => b.queue = q)
  removeExchange : ∀ x, Lists (t.removeExchange x).1 (s.filter fun b => b.exchange = x)
  contains : ∀ b, t.contains b = decide (b ∈ s)
  ofExchange : ∀ x, Lists (t.ofExchange x) (s.filter fun b => b.exchange = x)
  ofQueue : ∀ q, Lists (t.ofQueue q) (s.filter fun b => b.queue = q)
  exchangesOf : ∀ q, Lists (t.exchangesOf q).toList
    ((s.filter fun b => b.queue = q).image Binding.exchange)
  queuesOf : ∀ x, Lists (t.queuesOf x).toList
    ((s.filter fun b => b.exchange = x).image Binding.queue)
  toList : Lists t.toList s
  size : t.size = s.card
  /-- What is taken off the size was counted in it. -/
  size_remove : ∀ b t', t.remove? b = some t' → t'.size + 1 = t.size
  size_removeQueue : ∀ q, (t.removeQueue q).2.size + (t.removeQueue q).1.length = t.size
  size_removeExchange : ∀ x, (t.removeExchange x).2.size + (t.removeExchange x).1.length = t.size
  /-- No name has an entry without bindings. -/
  byExchange : ∀ (x : String) bucket, t.byExchange[x]? = some bucket → bucket ≠ ∅
  byQueue : ∀ (q : String) bucket, t.byQueue[q]? = some bucket → bucket ≠ ∅

theorem Represents.contains (h : t.Represents s) (b : Binding) :
    t.contains b = decide (b ∈ s) := by
  rw [Bool.eq_iff_iff, ← mem_iff_contains, h.mem, decide_eq_true_iff]

theorem Represents.ofExchange (h : t.Represents s) (x : String) :
    Lists (t.ofExchange x) (s.filter fun b => b.exchange = x) := by
  refine lists_toList fun b => ?_
  rw [← Std.ExtTreeSet.mem_toList, ← BindingTable.ofExchange, h.consistent.mem_ofExchange, h.mem,
    Finset.mem_filter]

theorem Represents.ofQueue (h : t.Represents s) (q : String) :
    Lists (t.ofQueue q) (s.filter fun b => b.queue = q) := by
  refine lists_toList fun b => ?_
  rw [← Std.ExtTreeSet.mem_toList, ← BindingTable.ofQueue, h.consistent.mem_ofQueue, h.mem,
    Finset.mem_filter]

theorem Represents.toList (h : t.Represents s) : Lists t.toList s :=
  lists_toList fun b => by
    rw [← Std.ExtTreeSet.mem_toList, ← BindingTable.toList, h.consistent.mem_toList, h.mem]

theorem Represents.size (h : t.Represents s) : t.size = s.card := by
  rw [h.canonical.size, h.toList.length_eq]

/-- Whatever part of the set an edit takes away, the sizes before and after differ by its number. -/
theorem Represents.size_edit (h : t.Represents s) (e : Edit) {gone : Finset Binding}
    (hgone : gone ⊆ s) (hrest : e.ofSet s = s \ gone) : (t.edit e).size + gone.card = t.size := by
  rw [(h.edit e).size, h.size, hrest, Finset.card_sdiff_add_card_eq_card hgone]

theorem Represents.answers (h : t.Represents s) : t.AnswersFrom s where
  insert b := by
    have hflag : (t.insert b).1 = !t.contains b := by
      unfold BindingTable.insert
      cases t.contains b <;> rfl
    rw [hflag, h.contains, decide_not]
  remove b := by
    rw [remove?_eq_none_iff, h.contains, decide_eq_false_iff_not]
  remove_absent b hb := edit_remove_of_not_mem (mt (h.mem b).1 hb)
  removeQueue := h.ofQueue
  removeExchange := h.ofExchange
  contains := h.contains
  ofExchange := h.ofExchange
  ofQueue := h.ofQueue
  exchangesOf q := (h.ofQueue q).names Binding.exchange
  queuesOf x := (h.ofExchange x).names Binding.queue
  toList := h.toList
  size := h.size
  size_remove b t' ht' := by
    have hb : b ∈ s := by
      by_contra hb
      rw [remove?_eq_none_iff.2 (by rw [h.contains]; simpa using hb)] at ht'
      cases ht'
    have hsize := h.size_edit (.remove b) (Finset.singleton_subset_iff.2 hb)
      (Finset.erase_eq s b)
    rwa [BindingTable.edit, ht', Option.getD_some, Finset.card_singleton] at hsize
  size_removeQueue q := by
    rw [show (t.removeQueue q).1.length = _ from (h.ofQueue q).length_eq]
    exact h.size_edit (.removeQueue q) (Finset.filter_subset _ s) (Finset.filter_not _ s)
  size_removeExchange x := by
    rw [show (t.removeExchange x).1.length = _ from (h.ofExchange x).length_eq]
    exact h.size_edit (.removeExchange x) (Finset.filter_subset _ s) (Finset.filter_not _ s)
  byExchange x bucket hx hempty := h.canonical.byExchange x (hempty ▸ hx)
  byQueue q bucket hq hempty := h.canonical.byQueue q (hempty ▸ hq)

/-- Whatever was done to a table since it was empty, it answers from the set of bindings that the
same was done to, and so does whatever is done to it next. -/
theorem editAll_answers (edits : List Edit) :
    (empty.editAll edits).AnswersFrom (Edit.allOfSet ∅ edits) :=
  (represents_empty.editAll edits).answers

end BindingTable

end BrokerTopology
