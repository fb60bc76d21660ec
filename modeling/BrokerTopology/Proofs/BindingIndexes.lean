/-
  BrokerTopology.Proofs.BindingIndexes — the two indexes of a binding
  table hold the same bindings.

  A table files every binding under its exchange and under its queue,
  and four operations change both indexes in different orders: one by
  one in one index, a whole bucket at once in the other.  `Consistent`
  is what they keep: a binding stands under its own ends only, and in
  one index exactly when it stands in the other.

  With that invariant a table is a set, `b ∈ t`, and each operation is
  described by what it does to the set and to the number of bindings of
  an exchange.

  Main statements:
    * `Consistent.insert`, `Consistent.remove?`, `Consistent.removeQueue`,
      `Consistent.removeExchange` — every operation keeps the invariant.
    * `mem_insert`, `mem_remove?`, `mem_removeQueue`, `mem_removeExchange`
      — what each does to the set.
    * `length_of_lost`, `Consistent.mem_ofExchange_of_lost` — what is left
      of a listing, and how many, in a table that lost some bindings.
-/
import BrokerTopology.BindingTable
import Mathlib.Data.List.Nodup
import Mathlib.Data.List.Perm.Subperm

namespace BrokerTopology

/-! ## §1. Listing a set -/

/-- A set of bindings lists each of its bindings once. -/
theorem BindingSet.nodup_toList (s : BindingSet) : s.toList.Nodup := by
  refine List.Pairwise.imp ?_ Std.ExtTreeSet.distinct_toList
  intro a b hne hab
  exact hne (hab ▸ Std.ReflCmp.compare_self)

/-! ## §2. Taking bindings out of an index one by one -/

/-- Bindings taken out one by one, each from under a name of its own, are gone from under
that name, and nothing else is. -/
theorem BindingIndex.mem_bucket_foldl_unfile (f : Binding → String) (bs : List Binding)
    (index : BindingIndex) (name : String) (c : Binding) :
    c ∈ BindingIndex.bucket (bs.foldl (fun index b => index.unfile (f b) b) index) name ↔
      c ∈ index.bucket name ∧ ¬ (c ∈ bs ∧ f c = name) := by
  induction bs generalizing index with
  | nil => simp
  | cons b bs ih =>
    rw [List.foldl_cons, ih, BindingIndex.mem_bucket_unfile]
    by_cases hbc : b = c
    · subst hbc
      simp only [List.mem_cons, true_or, true_and]
      tauto
    · have hcb : c ≠ b := fun h => hbc h.symm
      simp [hbc, hcb]

namespace BindingTable

/-! ## §3. The invariant -/

/-- A binding is in the table when it is filed under its exchange. -/
instance : Membership Binding BindingTable := ⟨fun t b => t.contains b = true⟩

theorem mem_iff_contains {t : BindingTable} {b : Binding} : b ∈ t ↔ t.contains b = true := Iff.rfl

theorem mem_iff {t : BindingTable} {b : Binding} :
    b ∈ t ↔ b ∈ t.byExchange.bucket b.exchange := by
  rw [mem_iff_contains, contains, Std.ExtTreeSet.contains_iff_mem]

instance (b : Binding) (t : BindingTable) : Decidable (b ∈ t) :=
  inferInstanceAs (Decidable (t.contains b = true))

/-- Bindings stand under their own ends, and in both indexes or in neither. -/
structure Consistent (t : BindingTable) : Prop where
  filed_exchange : ∀ {x : String} {b : Binding}, b ∈ t.byExchange.bucket x → b.exchange = x
  filed_queue : ∀ {q : String} {b : Binding}, b ∈ t.byQueue.bucket q → b.queue = q
  agree : ∀ b : Binding, b ∈ t.byExchange.bucket b.exchange ↔ b ∈ t.byQueue.bucket b.queue

theorem Consistent.mem_ofExchange {t : BindingTable} (h : t.Consistent) {x : String}
    {b : Binding} : b ∈ t.ofExchange x ↔ b ∈ t ∧ b.exchange = x := by
  rw [ofExchange, Std.ExtTreeSet.mem_toList, mem_iff]
  constructor
  · intro hb
    have hx := h.filed_exchange hb
    exact ⟨hx ▸ hb, hx⟩
  · rintro ⟨hb, rfl⟩
    exact hb

theorem Consistent.mem_ofQueue {t : BindingTable} (h : t.Consistent) {q : String}
    {b : Binding} : b ∈ t.ofQueue q ↔ b ∈ t ∧ b.queue = q := by
  rw [ofQueue, Std.ExtTreeSet.mem_toList, mem_iff, h.agree]
  constructor
  · intro hb
    have hq := h.filed_queue hb
    exact ⟨hq ▸ hb, hq⟩
  · rintro ⟨hb, rfl⟩
    exact hb

theorem nodup_ofExchange (t : BindingTable) (x : String) : (t.ofExchange x).Nodup :=
  BindingSet.nodup_toList _

theorem nodup_ofQueue (t : BindingTable) (q : String) : (t.ofQueue q).Nodup :=
  BindingSet.nodup_toList _

theorem consistent_empty : empty.Consistent where
  filed_exchange hb := by simp [empty, BindingIndex.bucket] at hb
  filed_queue hb := by simp [empty, BindingIndex.bucket] at hb
  agree b := by simp [empty, BindingIndex.bucket]

theorem not_mem_empty (b : Binding) : ¬ b ∈ empty := by
  rw [mem_iff]
  simp [empty, BindingIndex.bucket]

/-! ## §4. Inserting -/

theorem mem_insert {t : BindingTable} {b c : Binding} : c ∈ (t.insert b).2 ↔ c = b ∨ c ∈ t := by
  unfold insert
  split
  next hb =>
    constructor
    · exact Or.inr
    · rintro (rfl | hc)
      · exact hb
      · exact hc
  next hb =>
    rw [mem_iff, mem_iff, BindingIndex.mem_bucket_file]
    constructor
    · rintro (⟨-, rfl⟩ | hc)
      · exact Or.inl rfl
      · exact Or.inr hc
    · rintro (rfl | hc)
      · exact Or.inl ⟨rfl, rfl⟩
      · exact Or.inr hc

theorem Consistent.insert {t : BindingTable} (h : t.Consistent) (b : Binding) :
    (t.insert b).2.Consistent := by
  unfold BindingTable.insert
  split
  next => exact h
  next hb =>
    refine ⟨?_, ?_, ?_⟩
    · intro x c hc
      rcases BindingIndex.mem_bucket_file.1 hc with ⟨rfl, rfl⟩ | hc
      · rfl
      · exact h.filed_exchange hc
    · intro q c hc
      rcases BindingIndex.mem_bucket_file.1 hc with ⟨rfl, rfl⟩ | hc
      · rfl
      · exact h.filed_queue hc
    · intro c
      -- the new binding is under its own two names, the others are where they were
      show c ∈ (t.byExchange.file b.exchange b).bucket c.exchange ↔
        c ∈ (t.byQueue.file b.queue b).bucket c.queue
      rw [BindingIndex.mem_bucket_file, BindingIndex.mem_bucket_file, h.agree]
      constructor
      · rintro (⟨-, rfl⟩ | hc)
        · exact Or.inl ⟨rfl, rfl⟩
        · exact Or.inr hc
      · rintro (⟨-, rfl⟩ | hc)
        · exact Or.inl ⟨rfl, rfl⟩
        · exact Or.inr hc

/-! ## §5. Removing -/

theorem mem_remove? {t t' : BindingTable} {b c : Binding} (ht : t.remove? b = some t') :
    c ∈ t' ↔ c ∈ t ∧ c ≠ b := by
  unfold remove? at ht
  split at ht
  next =>
    injection ht with ht
    subst ht
    rw [mem_iff, mem_iff, BindingIndex.mem_bucket_unfile]
    constructor
    · rintro ⟨hc, hne⟩
      refine ⟨hc, ?_⟩
      rintro rfl
      exact hne ⟨rfl, rfl⟩
    · rintro ⟨hc, hne⟩
      exact ⟨hc, fun heq => hne heq.2.symm⟩
  next => cases ht

theorem Consistent.remove? {t t' : BindingTable} (h : t.Consistent) {b : Binding}
    (ht : t.remove? b = some t') : t'.Consistent := by
  unfold BindingTable.remove? at ht
  split at ht
  next =>
    injection ht with ht
    subst ht
    refine ⟨?_, ?_, ?_⟩
    · intro x c hc
      exact h.filed_exchange (BindingIndex.mem_bucket_unfile.1 hc).1
    · intro q c hc
      exact h.filed_queue (BindingIndex.mem_bucket_unfile.1 hc).1
    · intro c
      show c ∈ (t.byExchange.unfile b.exchange b).bucket c.exchange ↔
        c ∈ (t.byQueue.unfile b.queue b).bucket c.queue
      rw [BindingIndex.mem_bucket_unfile, BindingIndex.mem_bucket_unfile, h.agree]
      constructor
      · rintro ⟨hc, hne⟩
        exact ⟨hc, fun heq => hne ⟨by rw [heq.2], heq.2⟩⟩
      · rintro ⟨hc, hne⟩
        exact ⟨hc, fun heq => hne ⟨by rw [heq.2], heq.2⟩⟩
  next => cases ht

theorem removeQueue_byExchange (t : BindingTable) (q : String) :
    (t.removeQueue q).2.byExchange =
      (t.ofQueue q).foldl (fun index b => index.unfile b.exchange b) t.byExchange := rfl

theorem removeExchange_byQueue (t : BindingTable) (x : String) :
    (t.removeExchange x).2.byQueue =
      (t.ofExchange x).foldl (fun index b => index.unfile b.queue b) t.byQueue := rfl

theorem mem_removeQueue {t : BindingTable} (h : t.Consistent) {q : String} {c : Binding} :
    c ∈ (t.removeQueue q).2 ↔ c ∈ t ∧ c.queue ≠ q := by
  rw [mem_iff, removeQueue_byExchange, BindingIndex.mem_bucket_foldl_unfile Binding.exchange,
    h.mem_ofQueue, ← mem_iff]
  tauto

theorem mem_removeExchange {t : BindingTable} {x : String} {c : Binding} :
    c ∈ (t.removeExchange x).2 ↔ c ∈ t ∧ c.exchange ≠ x := by
  rw [mem_iff, mem_iff]
  show c ∈ BindingIndex.bucket (t.byExchange.erase x) c.exchange ↔ _
  rw [BindingIndex.bucket_erase]
  split
  next hx => simp [hx]
  next hx => simp [Ne.symm hx]

theorem Consistent.removeQueue {t : BindingTable} (h : t.Consistent) (q : String) :
    (t.removeQueue q).2.Consistent := by
  refine ⟨?_, ?_, ?_⟩
  · intro x c hc
    rw [removeQueue_byExchange, BindingIndex.mem_bucket_foldl_unfile Binding.exchange] at hc
    exact h.filed_exchange hc.1
  · intro p c hc
    replace hc : c ∈ BindingIndex.bucket (t.byQueue.erase q) p := hc
    rw [BindingIndex.bucket_erase] at hc
    split at hc
    next => simp at hc
    next => exact h.filed_queue hc
  · intro c
    rw [← mem_iff, mem_removeQueue h]
    show _ ↔ c ∈ BindingIndex.bucket (t.byQueue.erase q) c.queue
    rw [BindingIndex.bucket_erase, mem_iff, h.agree]
    split
    next hq => simp [hq]
    next hq => simp [Ne.symm hq]

theorem Consistent.removeExchange {t : BindingTable} (h : t.Consistent) (x : String) :
    (t.removeExchange x).2.Consistent := by
  refine ⟨?_, ?_, ?_⟩
  · intro y c hc
    replace hc : c ∈ BindingIndex.bucket (t.byExchange.erase x) y := hc
    rw [BindingIndex.bucket_erase] at hc
    split at hc
    next => simp at hc
    next => exact h.filed_exchange hc
  · intro q c hc
    rw [removeExchange_byQueue, BindingIndex.mem_bucket_foldl_unfile Binding.queue] at hc
    exact h.filed_queue hc.1
  · intro c
    rw [← mem_iff, mem_removeExchange, removeExchange_byQueue,
      BindingIndex.mem_bucket_foldl_unfile Binding.queue, h.mem_ofExchange, ← h.agree, ← mem_iff]
    tauto

/-! ## §6. How many bindings an exchange has left -/

/-- One binding more is one more for its exchange, and for no other. -/
theorem Consistent.length_ofExchange_insert {t : BindingTable} (h : t.Consistent) {b : Binding}
    (hb : ¬ b ∈ t) (x : String) :
    ((t.insert b).2.ofExchange x).length =
      (t.ofExchange x).length + if b.exchange = x then 1 else 0 := by
  have hmem : ∀ c, c ∈ (t.insert b).2.ofExchange x ↔
      c ∈ if b.exchange = x then b :: t.ofExchange x else t.ofExchange x := by
    intro c
    rw [(h.insert b).mem_ofExchange, mem_insert]
    split
    next hx =>
      rw [List.mem_cons, h.mem_ofExchange]
      constructor
      · rintro ⟨rfl | hc, hcx⟩
        · exact Or.inl rfl
        · exact Or.inr ⟨hc, hcx⟩
      · rintro (rfl | hc)
        · exact ⟨Or.inl rfl, hx⟩
        · exact ⟨Or.inr hc.1, hc.2⟩
    next hx =>
      rw [h.mem_ofExchange]
      constructor
      · rintro ⟨rfl | hc, hcx⟩
        · exact absurd hcx hx
        · exact ⟨hc, hcx⟩
      · rintro ⟨hc, hcx⟩
        exact ⟨Or.inr hc, hcx⟩
  have hnodup : (if b.exchange = x then b :: t.ofExchange x else t.ofExchange x).Nodup := by
    split
    next =>
      refine List.nodup_cons.2 ⟨?_, t.nodup_ofExchange x⟩
      intro hbx
      exact hb (h.mem_ofExchange.1 hbx).1
    next => exact t.nodup_ofExchange x
  -- the same bindings, none of them twice: in whatever order, that is the same number
  rw [((List.perm_ext_iff_of_nodup (nodup_ofExchange _ x) hnodup).2 hmem).length_eq]
  split <;> simp

/-- A list that lost the bindings with some property has the others. -/
theorem perm_of_lost {bs bs' : List Binding} (hnodup : bs.Nodup) (hnodup' : bs'.Nodup)
    {p : Binding → Bool} (hmem : ∀ c, c ∈ bs' ↔ c ∈ bs ∧ p c = false) :
    bs'.Perm (bs.filter fun c => !p c) := by
  refine (List.perm_ext_iff_of_nodup hnodup' (hnodup.filter _)).2 fun c => ?_
  rw [List.mem_filter, hmem, Bool.not_eq_true']

/-- What it has left, with what went, is what it had. -/
theorem length_of_lost {bs bs' : List Binding} (hnodup : bs.Nodup) (hnodup' : bs'.Nodup)
    {p : Binding → Bool} (hmem : ∀ c, c ∈ bs' ↔ c ∈ bs ∧ p c = false) :
    bs'.length + bs.countP p = bs.length := by
  rw [(perm_of_lost hnodup hnodup' hmem).length_eq, ← List.countP_eq_length_filter,
    List.length_eq_countP_add_countP p]
  have hnot : ∀ c : Binding, (!p c) = decide (¬ p c = true) := by
    intro c
    cases p c <;> rfl
  simp only [hnot]
  omega

/-- So it is for the bindings of an exchange, in a table that lost some. -/
theorem Consistent.mem_ofExchange_of_lost {t t' : BindingTable} (h : t.Consistent)
    (h' : t'.Consistent) {p : Binding → Bool} (hmem : ∀ c, c ∈ t' ↔ c ∈ t ∧ p c = false)
    (x : String) (c : Binding) :
    c ∈ t'.ofExchange x ↔ c ∈ t.ofExchange x ∧ p c = false := by
  rw [h'.mem_ofExchange, h.mem_ofExchange, hmem]
  tauto

/-- The bindings between a queue and an exchange are as many from either end. -/
theorem Consistent.countP_ofQueue {t : BindingTable} (h : t.Consistent) (q x : String) :
    (t.ofQueue q).countP (fun b => b.exchange == x) =
      (t.ofExchange x).countP (fun b => b.queue == q) := by
  rw [List.countP_eq_length_filter, List.countP_eq_length_filter]
  refine List.Perm.length_eq ((List.perm_ext_iff_of_nodup ((t.nodup_ofQueue q).filter _)
    ((t.nodup_ofExchange x).filter _)).2 ?_)
  intro c
  rw [List.mem_filter, List.mem_filter, h.mem_ofQueue, h.mem_ofExchange]
  simp only [beq_iff_eq]
  tauto

/-! ## §7. The whole table -/

theorem Consistent.mem_toList {t : BindingTable} (h : t.Consistent) {b : Binding} :
    b ∈ t.toList ↔ b ∈ t := by
  rw [toList, Std.ExtTreeSet.mem_toList, toSet, Std.ExtTreeSet.mem_ofList, List.contains_iff_mem,
    List.mem_flatMap, mem_iff]
  constructor
  · rintro ⟨⟨x, bucket⟩, hentry, hb⟩
    have hbucket : t.byExchange[x]? = some bucket :=
      Std.ExtTreeMap.mem_toList_iff_getElem?_eq_some.1 hentry
    have hb : b ∈ t.byExchange.bucket x := by
      rw [BindingIndex.bucket, hbucket]
      exact Std.ExtTreeSet.mem_toList.1 hb
    have hx := h.filed_exchange hb
    exact hx ▸ hb
  · intro hb
    cases hbucket : t.byExchange[b.exchange]? with
    | none =>
      rw [BindingIndex.bucket, hbucket] at hb
      exact absurd hb Std.ExtTreeSet.not_mem_empty
    | some bucket =>
      rw [BindingIndex.bucket, hbucket] at hb
      exact ⟨(b.exchange, bucket), Std.ExtTreeMap.mem_toList_iff_getElem?_eq_some.2 hbucket,
        Std.ExtTreeSet.mem_toList.2 hb⟩

/-- The bindings of an exchange are as many as the table lists of it. -/
theorem Consistent.length_ofExchange {t : BindingTable} (h : t.Consistent) (x : String) :
    (t.ofExchange x).length = t.toList.countP (fun b => b.exchange == x) := by
  rw [List.countP_eq_length_filter]
  refine List.Perm.length_eq ((List.perm_ext_iff_of_nodup (t.nodup_ofExchange x)
    ((BindingSet.nodup_toList t.toSet).filter _)).2 ?_)
  intro b
  rw [List.mem_filter, ← toList, h.mem_toList, h.mem_ofExchange, beq_iff_eq]

end BindingTable

end BrokerTopology
