/-
  BrokerTopology.Proofs.CascadePlan — what a cascade plans, said without
  its rounds.

  Planning works with pending, marked and removed sets and decides from
  a count less the planned bindings whether an exchange is orphaned.
  What comes out has a direct description.  A removal covers some
  bindings: its own, or all of its queue or of its exchange.  It strands
  an auto-delete exchange that has a binding, and none that the removal
  does not cover.  The plan is the removal itself, then the stranded
  exchanges, each once; it is recorded op by op; and it stays within
  the keys held from the start.

  Two rounds do it.  The first takes out what was asked for and marks
  the exchanges that lose bindings; the second takes out the stranded
  ones, which have no binding left that is not planned.

  Main statements:
    * `Topology.any_isAutoDeleted` — the exchanges that go with their last
      binding are those the broker takes for such.
    * `isOrphaned_iff` — the count decides that every binding is planned.
    * `Taken.inTwoRounds` — once a removal is taken out, two rounds end the
      cascade.
    * `inTwoRounds` — and so they do for every removal of something that is
      there, with the keys held that are read for it.
    * `plans_removingQueue`, `plans_removingExchange`,
      `plans_removingBinding` — what the three cascades come to.
-/
import BrokerTopology.Proofs.OneRemoval

namespace BrokerTopology

/-! ## §1. The direct description -/

namespace Topology

/-- Whether there is an exchange of a name that was declared to go with its last binding, and
that is not built in. -/
def autoDeletes (t : Topology) (x : String) : Bool :=
  (t.registry.exchange? x).any fun e => e.definition.autoDelete && !e.builtin

/-- These are the exchanges that the broker takes for auto-deleted. -/
theorem any_isAutoDeleted (t : Topology) (x : String) :
    (t.registry.exchange? x).any Exchange.isAutoDeleted = t.autoDeletes x := rfl

theorem autoDeletes_iff {t : Topology} {x : String} :
    t.autoDeletes x = true ↔ ∃ e, t.registry.exchange? x = some e ∧
      e.definition.autoDelete = true ∧ e.builtin = false := by
  simp [autoDeletes, Option.any_eq_true]

/-- Whether a removal takes an auto-delete exchange's last bindings. -/
def strands (t : Topology) (r : Removal) (x : String) : Bool :=
  t.autoDeletes x &&
    ((t.bindings.ofExchange x).any r.covers && (t.bindings.ofExchange x).all r.covers)

/-- What a removal is recorded as: nothing if what it removes does not outlive the broker. -/
def recordOf (t : Topology) : Removal → Option DurableOp
  | .binding b => if t.isPersistent b then some (.unbind b) else none
  | .queue name =>
    if (t.registry.queue? name).any (fun q => q.definition.persistent) then
      some (.deleteQueue name)
    else none
  | .exchange name =>
    if (t.registry.exchange? name).any (fun x => x.definition.durable) then
      some (.deleteExchange name)
    else none

/-- Whether an auto-delete exchange has bindings, and none but of a kind. -/
theorem WellFormed.bound_only_iff {t : Topology} (h : t.WellFormed) {covers : Binding → Bool}
    {x : String} :
    (t.autoDeletes x &&
        ((t.bindings.ofExchange x).any covers && (t.bindings.ofExchange x).all covers)) = true ↔
      t.autoDeletes x = true ∧
        (∃ b ∈ t.bindings, b.exchange = x ∧ covers b = true) ∧
        ∀ b ∈ t.bindings, b.exchange = x → covers b = true := by
  simp only [Bool.and_eq_true, List.any_eq_true, List.all_eq_true, h.table.mem_ofExchange]
  constructor
  · rintro ⟨hauto, ⟨b, ⟨hb, hx⟩, hcovers⟩, hall⟩
    exact ⟨hauto, ⟨b, hb, hx, hcovers⟩, fun c hc hcx => hall c ⟨hc, hcx⟩⟩
  · rintro ⟨hauto, ⟨b, hb, hx, hcovers⟩, hall⟩
    exact ⟨hauto, ⟨b, ⟨hb, hx⟩, hcovers⟩, fun c hc => hall c hc.1 hc.2⟩

theorem WellFormed.strands_iff {t : Topology} (h : t.WellFormed) {r : Removal} {x : String} :
    t.strands r x = true ↔
      t.autoDeletes x = true ∧
        (∃ b ∈ t.bindings, b.exchange = x ∧ r.covers b = true) ∧
        ∀ b ∈ t.bindings, b.exchange = x → r.covers b = true :=
  h.bound_only_iff

/-- An exchange that is stranded may be removed. -/
theorem removable_of_autoDeletes {t : Topology} {x : String} (h : t.autoDeletes x = true) :
    t.Removable (.exchange x) := by
  obtain ⟨e, he, -, hbuiltin⟩ := autoDeletes_iff.1 h
  exact ⟨e, he, hbuiltin⟩

end Topology

namespace Cascade

/-- A cascade planned for a removal: the removal and the exchanges that it strands, each once,
with what they are recorded as, and nothing beyond the keys held. -/
structure Plans (t : Topology) (r : Removal) (c : Cascade) : Prop where
  removals_eq : ∃ gone : List String, gone.Nodup ∧
    (∀ x, x ∈ gone ↔ t.strands r x = true ∧ r ≠ .exchange x) ∧
    c.removals = r :: gone.map .exchange
  ops_eq : c.ops = c.removals.filterMap t.recordOf
  missing_eq : c.missing = ∅

/-- Nothing is planned away twice. -/
theorem Plans.nodup_removals {t : Topology} {r : Removal} {c : Cascade} (hc : Plans t r c) :
    c.removals.Nodup := by
  obtain ⟨gone, hnodup, hgone, hremovals⟩ := hc.removals_eq
  rw [hremovals]
  refine List.nodup_cons.2 ⟨?_, hnodup.map fun x y heq => by injection heq⟩
  intro hmem
  obtain ⟨x, hx, rfl⟩ := List.mem_map.1 hmem
  exact ((hgone x).1 hx).2 rfl

/-! ## §2. The parts of a round -/

/-- The keys of a set, each once. -/
theorem nodup_keys (s : KeySet) : s.toList.Nodup := by
  refine List.Pairwise.imp ?_ Std.ExtTreeSet.distinct_toList
  intro a b hne hab
  exact hne (hab ▸ Std.ReflCmp.compare_self)

/-- The bindings of a queue are planned away, and their exchanges are marked. -/
theorem foldl_dropWithQueue {held : KeySet} {bs : List Binding} {c : Cascade}
    (hheld : ∀ b ∈ bs, held.contains (.exchange b.exchange) = true) (hnodup : bs.Nodup)
    (hfresh : ∀ b ∈ bs, ¬ b ∈ c.removedBindings) :
    bs.foldl (dropWithQueue held) c =
      { c with
        marked := c.marked.insertMany (bs.map Binding.exchange)
        removedBindings := c.removedBindings.insertMany bs } := by
  induction bs generalizing c with
  | nil => rfl
  | cons b bs ih =>
    have hb : c.removedBindings.contains b = false := by
      rw [Bool.eq_false_iff]
      exact fun hmem => hfresh b List.mem_cons_self (Std.ExtTreeSet.contains_iff_mem.1 hmem)
    have hstep : dropWithQueue held c b =
        { c with
          marked := c.marked.insert b.exchange
          removedBindings := c.removedBindings.insert b } := by
      simp [dropWithQueue, hb, hheld b List.mem_cons_self]
    obtain ⟨hnotin, hnodup⟩ := List.nodup_cons.1 hnodup
    rw [List.foldl_cons, hstep, ih (fun d hd => hheld d (List.mem_cons_of_mem _ hd)) hnodup ?_]
    · rw [List.map_cons, Std.ExtTreeSet.insertMany_cons, Std.ExtTreeSet.insertMany_cons]
    · intro d hd hmem
      rcases Std.ExtTreeSet.mem_insert.1 hmem with heq | hmem
      · have hbd : b = d := Std.LawfulEqCmp.eq_of_compare heq
        exact hnotin (hbd ▸ hd)
      · exact hfresh d (List.mem_cons_of_mem _ hd) hmem

/-- The bindings of an exchange are planned away, while the queues they lead to are held. -/
theorem foldl_dropWithExchange {held : KeySet} {bs : List Binding} {c : Cascade}
    (hheld : ∀ b ∈ bs, b ∈ c.removedBindings ∨ held.contains (.queue b.queue) = true) :
    bs.foldl (dropWithExchange held) c =
      { c with removedBindings := c.removedBindings.insertMany bs } := by
  induction bs generalizing c with
  | nil => rfl
  | cons b bs ih =>
    have hstep : dropWithExchange held c b =
        { c with removedBindings := c.removedBindings.insert b } := by
      by_cases hb : b ∈ c.removedBindings
      · have hsame : c.removedBindings.insert b = c.removedBindings := by
          refine Std.ExtTreeSet.ext_mem ?_
          intro d
          rw [Std.ExtTreeSet.mem_insert]
          constructor
          · rintro (heq | hd)
            · have hbd : b = d := Std.LawfulEqCmp.eq_of_compare heq
              exact hbd ▸ hb
            · exact hd
          · exact Or.inr
        rw [hsame]
        simp [dropWithExchange, Std.ExtTreeSet.contains_iff_mem, hb]
      · have hkey := (hheld b List.mem_cons_self).resolve_left hb
        simp [dropWithExchange, hb, hkey]
    rw [List.foldl_cons, hstep, ih ?_, Std.ExtTreeSet.insertMany_cons]
    intro d hd
    rcases hheld d (List.mem_cons_of_mem _ hd) with hmem | hkey
    · exact Or.inl (Std.ExtTreeSet.mem_insert.2 (Or.inr hmem))
    · exact Or.inr hkey

/-- The marked exchanges that are orphaned are taken up for removal. -/
theorem foldl_evaluate {t : Topology} {held : KeySet} {names : List String} {c : Cascade}
    (hheld : ∀ x ∈ names, held.contains (.exchange x) = true)
    (hremoved : ∀ x ∈ names, c.removed.contains (.exchange x) = false) :
    names.foldl (evaluate t held) c =
      { c with
        pending := c.pending.insertMany ((names.filter (c.isOrphaned t)).map .exchange) } := by
  induction names generalizing c with
  | nil => rfl
  | cons x names ih =>
    have hx := hremoved x List.mem_cons_self
    have hkey := hheld x List.mem_cons_self
    have hrest : ∀ y ∈ names, held.contains (.exchange y) = true :=
      fun y hy => hheld y (List.mem_cons_of_mem _ hy)
    rw [List.foldl_cons]
    cases horphan : c.isOrphaned t x with
    | false =>
      have hstep : evaluate t held c x = c := by simp [evaluate, hx, hkey, horphan]
      rw [hstep, ih hrest fun y hy => hremoved y (List.mem_cons_of_mem _ hy),
        List.filter_cons_of_neg (by simp [horphan])]
    | true =>
      have hstep : evaluate t held c x =
          { c with pending := c.pending.insert (.exchange x) } := by
        simp [evaluate, hx, hkey, horphan, schedule]
      have hnext := ih (c := { c with pending := c.pending.insert (.exchange x) }) hrest
        fun y hy => hremoved y (List.mem_cons_of_mem _ hy)
      rw [hstep, hnext, List.filter_cons_of_pos horphan, List.map_cons,
        Std.ExtTreeSet.insertMany_cons]
      -- being orphaned is a matter of the planned bindings, not of what is pending
      rfl

/-- Exchanges whose bindings are planned away already go one after the other. -/
theorem foldl_take_exchanges {t : Topology} {held : KeySet} {names : List String} {c : Cascade}
    (hnodup : names.Nodup) (hheld : ∀ x ∈ names, held.contains (.exchange x) = true)
    (hremoved : ∀ x ∈ names, c.removed.contains (.exchange x) = false)
    (hfound : ∀ x ∈ names, t.Removable (.exchange x))
    (hplanned : ∀ x ∈ names, ∀ b ∈ t.bindings.ofExchange x, b ∈ c.removedBindings) :
    (names.map EntityKey.exchange).foldl (take t held) c =
      { c with
        removed := c.removed.insertMany (names.map .exchange)
        removals := c.removals ++ names.map .exchange
        ops := c.ops ++ (names.map Removal.exchange).filterMap t.recordOf } := by
  induction names generalizing c with
  | nil => simp
  | cons x names ih =>
    obtain ⟨hnotin, hnodup⟩ := List.nodup_cons.1 hnodup
    obtain ⟨record, hrecord, hbuiltin⟩ := hfound x List.mem_cons_self
    have hdrop : (t.bindings.ofExchange x).foldl (dropWithExchange held) c = c := by
      have hall := hplanned x List.mem_cons_self
      rw [foldl_dropWithExchange fun b hb => Or.inl (hall b hb)]
      have hsame : c.removedBindings.insertMany (t.bindings.ofExchange x) =
          c.removedBindings := by
        refine Std.ExtTreeSet.ext_mem ?_
        intro d
        rw [Std.ExtTreeSet.mem_insertMany_list, List.contains_iff_mem]
        exact ⟨fun hd => hd.elim id (hall d), Or.inl⟩
      rw [hsame]
    have hstep : take t held c (.exchange x) =
        c.enter (.exchange x) (.exchange x) (t.recordOf (.exchange x)) := by
      simp [take, hheld x List.mem_cons_self, hremoved x List.mem_cons_self, takeExchange, hrecord,
        hbuiltin, hdrop, Topology.recordOf]
    have hlater : ∀ y ∈ names, (c.enter (.exchange x) (.exchange x)
        (t.recordOf (.exchange x))).removed.contains (.exchange y) = false := by
      intro y hy
      have hne : x ≠ y := fun heq => hnotin (heq ▸ hy)
      simp [enter, Std.ExtTreeSet.contains_insert, hremoved y (List.mem_cons_of_mem _ hy), hne]
    have hnext := ih (c := c.enter (.exchange x) (.exchange x) (t.recordOf (.exchange x))) hnodup
      (fun y hy => hheld y (List.mem_cons_of_mem _ hy)) hlater
      (fun y hy => hfound y (List.mem_cons_of_mem _ hy))
      (fun y hy => hplanned y (List.mem_cons_of_mem _ hy))
    rw [List.map_cons, List.foldl_cons, hstep, hnext]
    simp only [enter, List.map_cons, Std.ExtTreeSet.insertMany_cons, List.append_assoc,
      List.singleton_append, List.filterMap_cons]
    cases t.recordOf (.exchange x) <;> rfl

/-! ## §3. What is orphaned -/

/-- The count of an exchange, less the planned bindings, is zero exactly if all of its
bindings are planned away. -/
theorem isOrphaned_iff {t : Topology} (h : t.WellFormed) {c : Cascade}
    (hsub : ∀ b ∈ c.removedBindings, b ∈ t.bindings) {x : String} :
    c.isOrphaned t x = true ↔
      t.autoDeletes x = true ∧ ∀ b ∈ t.bindings, b.exchange = x → b ∈ c.removedBindings := by
  have hnodup : (c.removedBindings.toList.filter fun b => b.exchange == x).Nodup :=
    (BindingSet.nodup_toList c.removedBindings).filter _
  have hplanned : ∀ b, b ∈ c.removedBindings.toList.filter (fun b => b.exchange == x) ↔
      b ∈ c.removedBindings ∧ b.exchange = x := by
    intro b
    rw [List.mem_filter, Std.ExtTreeSet.mem_toList, beq_iff_eq]
  rw [isOrphaned, t.any_isAutoDeleted]
  simp only [Bool.and_eq_true, beq_iff_eq, h.bindings_counted, plannedOf]
  refine and_congr_right fun _ => ⟨?_, ?_⟩
  · intro hcount b hb hx
    -- the planned bindings of the exchange are some of its bindings, and as many
    have hsubperm : (c.removedBindings.toList.filter fun b => b.exchange == x).Subperm
        (t.bindings.ofExchange x) := by
      refine hnodup.subperm ?_
      intro d hd
      obtain ⟨hd, hdx⟩ := (hplanned d).1 hd
      exact h.table.mem_ofExchange.2 ⟨hsub d hd, hdx⟩
    have hperm := hsubperm.perm_of_length_le (by omega)
    exact ((hplanned b).1 (hperm.mem_iff.2 (h.table.mem_ofExchange.2 ⟨hb, hx⟩))).1
  · intro hall
    have hsubperm : (t.bindings.ofExchange x).Subperm
        (c.removedBindings.toList.filter fun b => b.exchange == x) := by
      refine (t.bindings.nodup_ofExchange x).subperm ?_
      intro b hb
      obtain ⟨hb, hx⟩ := h.table.mem_ofExchange.1 hb
      exact (hplanned b).2 ⟨hall b hb hx, hx⟩
    have hle := hsubperm.length_le
    omega

/-! ## §4. Rounds -/

/-- A round that leaves nothing pending is the last. -/
theorem run_of_settled {t : Topology} {held : KeySet} {c : Cascade}
    (h : (c.round t held).pending = ∅) (limit : Nat) : run t held limit c = c.round t held := by
  cases limit with
  | zero => rfl
  | succ limit => simp [run, h]

/-- A run that two rounds bring to an end. -/
theorem run_two {t : Topology} {held : KeySet} {c : Cascade}
    (hmarked : (c.round t held).marked = ∅)
    (hpending : ((c.round t held).round t held).pending = ∅) (limit : Nat) :
    run t held (limit + 1) c = (c.round t held).round t held := by
  unfold run
  simp only
  split
  next hempty =>
    rw [round_nil t held (Std.ExtTreeSet.isEmpty_iff.1 hempty) hmarked]
  next => exact run_of_settled hpending limit

/-- A round that takes out what it finds pending, and marks nothing. -/
theorem round_of_unmarked {t : Topology} {held : KeySet} {c taken : Cascade}
    (htaken : c.pending.toList.foldl (take t held) { c with pending := ∅ } = taken)
    (hmarked : taken.marked = ∅) : c.round t held = taken := by
  have hnames : (∅ : NameSet).toList = [] := Std.ExtTreeSet.toList_eq_nil_iff.2 rfl
  unfold round
  rw [htaken]
  simp only [hmarked, hnames, List.foldl_nil]
  rw [← hmarked]

/-- Two rounds bring the planning of a removal to an end: the first leaves nothing marked, the
second nothing pending, and planned away are the bindings that the removal covers. -/
structure InTwoRounds (t : Topology) (held : KeySet) (r : Removal) (start : Cascade) : Prop where
  marked_first : (start.round t held).marked = ∅
  pending_second : ((start.round t held).round t held).pending = ∅
  plans : Plans t r ((start.round t held).round t held)
  mem_planned : ∀ b, b ∈ ((start.round t held).round t held).removedBindings ↔
    b ∈ t.bindings ∧ r.covers b = true

/-- A first round after which nothing is left to do is not changed by a second. -/
theorem InTwoRounds.of_first {t : Topology} {held : KeySet} {r : Removal} {start c : Cascade}
    (hfirst : start.round t held = c) (hpending : c.pending = ∅) (hmarked : c.marked = ∅)
    (hplans : Plans t r c)
    (hplanned : ∀ b, b ∈ c.removedBindings ↔ b ∈ t.bindings ∧ r.covers b = true) :
    InTwoRounds t held r start := by
  subst hfirst
  have hsecond := round_nil t held hpending hmarked
  rw [← hsecond] at hpending hplans hplanned
  exact ⟨hmarked, hpending, hplans, hplanned⟩

/-- A set of keys of exchanges lists their names, each once. -/
theorem toList_of_exchanges {s : KeySet} {p : String → Prop}
    (h : ∀ key, key ∈ s ↔ ∃ x, key = .exchange x ∧ p x) :
    ∃ names : List String, names.Nodup ∧ (∀ x, x ∈ names ↔ p x) ∧
      s.toList = names.map .exchange := by
  have hkeys : s.toList = (s.toList.map EntityKey.name).map EntityKey.exchange := by
    rw [List.map_map]
    refine (List.map_id' _).symm.trans (List.map_congr_left ?_)
    intro key hkey
    obtain ⟨x, rfl, -⟩ := (h key).1 (Std.ExtTreeSet.mem_toList.1 hkey)
    rfl
  refine ⟨s.toList.map EntityKey.name, ?_, ?_, hkeys⟩
  · have hnodup := nodup_keys s
    rw [hkeys] at hnodup
    exact hnodup.of_map _
  · intro x
    constructor
    · intro hx
      obtain ⟨key, hkey, rfl⟩ := List.mem_map.1 hx
      obtain ⟨y, rfl, hy⟩ := (h key).1 (Std.ExtTreeSet.mem_toList.1 hkey)
      exact hy
    · intro hx
      exact List.mem_map.2 ⟨.exchange x, Std.ExtTreeSet.mem_toList.2 ((h _).2 ⟨x, rfl, hx⟩), rfl⟩

/-- A cascade with one removal taken out: the bindings that it covers are planned away, and
their exchanges are marked. -/
structure Taken (t : Topology) (held : KeySet) (r : Removal) (c : Cascade) : Prop where
  pending_eq : c.pending = ∅
  missing_eq : c.missing = ∅
  removals_eq : c.removals = [r]
  ops_eq : c.ops = (t.recordOf r).toList
  mem_planned : ∀ b, b ∈ c.removedBindings ↔ b ∈ t.bindings ∧ r.covers b = true
  mem_marked : ∀ x, x ∈ c.marked ↔ ∃ b ∈ c.removedBindings, b.exchange = x
  marked_held : ∀ x ∈ c.marked, held.contains (.exchange x) = true
  exchanges_left : ∀ x, c.removed.contains (.exchange x) = false

namespace Taken

variable {t : Topology} {held : KeySet} {r : Removal} {c : Cascade}

/-- The marked exchanges that are orphaned, as keys. -/
def orphans (t : Topology) (c : Cascade) : KeySet :=
  (∅ : KeySet).insertMany ((c.marked.toList.filter (c.isOrphaned t)).map EntityKey.exchange)

/-- The orphaned among the marked exchanges are the stranded ones. -/
theorem mem_orphans (hc : Taken t held r c) (h : t.WellFormed) (key : EntityKey) :
    key ∈ orphans t c ↔ ∃ x, key = .exchange x ∧ t.strands r x = true := by
  have horphaned : ∀ x, c.isOrphaned t x = true ↔
      t.autoDeletes x = true ∧ ∀ b ∈ t.bindings, b.exchange = x → b ∈ c.removedBindings :=
    fun x => isOrphaned_iff h fun b hb => ((hc.mem_planned b).1 hb).1
  rw [orphans, Std.ExtTreeSet.mem_insertMany_list, List.contains_iff_mem]
  simp only [Std.ExtTreeSet.not_mem_empty, false_or, List.mem_map, List.mem_filter,
    Std.ExtTreeSet.mem_toList, h.strands_iff, hc.mem_marked, horphaned, hc.mem_planned]
  constructor
  · rintro ⟨x, ⟨⟨b, ⟨hb, hcovers⟩, hx⟩, hauto, hall⟩, rfl⟩
    exact ⟨x, rfl, hauto, ⟨b, hb, hx, hcovers⟩, fun c hc hcx => (hall c hc hcx).2⟩
  · rintro ⟨x, rfl, hauto, ⟨b, hb, hx, hcovers⟩, hall⟩
    exact ⟨x, ⟨⟨b, ⟨hb, hcovers⟩, hx⟩, hauto, fun c hc hcx => ⟨hc, hall c hc hcx⟩⟩, rfl⟩

/-- The round that takes the removal out leaves the orphans pending. -/
theorem first_round (hc : Taken t held r c) {start : Cascade}
    (htaken : start.pending.toList.foldl (take t held) { start with pending := ∅ } = c) :
    start.round t held = { c with marked := ∅, pending := orphans t c } := by
  have hevaluate := foldl_evaluate (t := t) (c := { c with marked := ∅ })
    (fun x hx => hc.marked_held x (Std.ExtTreeSet.mem_toList.1 hx))
    (fun x _ => hc.exchanges_left x)
  unfold round
  rw [htaken]
  refine hevaluate.trans ?_
  simp only [hc.pending_eq]
  rfl

/-- The next round takes the orphans out, and marks nothing. -/
theorem second_round (hc : Taken t held r c) (h : t.WellFormed) {gone : List String}
    (hnodup : gone.Nodup) (hgone : ∀ x ∈ gone, t.strands r x = true)
    (hkeys : (orphans t c).toList = gone.map EntityKey.exchange) :
    Cascade.round t held { c with marked := ∅, pending := orphans t c } =
      { c with
        marked := ∅
        removed := c.removed.insertMany (gone.map .exchange)
        removals := r :: gone.map .exchange
        ops := (r :: gone.map Removal.exchange).filterMap t.recordOf } := by
  refine round_of_unmarked ?_ rfl
  show (orphans t c).toList.foldl (take t held) { c with marked := ∅, pending := ∅ } = _
  rw [hkeys, foldl_take_exchanges hnodup]
  · simp only [hc.pending_eq, hc.removals_eq, hc.ops_eq, List.filterMap_cons,
      List.singleton_append]
    cases t.recordOf r <;> rfl
  · intro x hx
    obtain ⟨-, ⟨b, hb, hbx, hcovers⟩, -⟩ := h.strands_iff.1 (hgone x hx)
    exact hc.marked_held x ((hc.mem_marked x).2 ⟨b, (hc.mem_planned b).2 ⟨hb, hcovers⟩, hbx⟩)
  · intro x _
    exact hc.exchanges_left x
  · intro x hx
    exact Topology.removable_of_autoDeletes (h.strands_iff.1 (hgone x hx)).1
  · intro x hx b hb
    obtain ⟨hb, hbx⟩ := h.table.mem_ofExchange.1 hb
    exact (hc.mem_planned b).2 ⟨hb, (h.strands_iff.1 (hgone x hx)).2.2 b hb hbx⟩

/-- Once the removal is taken out, the stranded exchanges follow, and that is all. -/
theorem inTwoRounds (hc : Taken t held r c) (h : t.WellFormed) (hr : ∀ x, r ≠ .exchange x)
    {start : Cascade}
    (htaken : start.pending.toList.foldl (take t held) { start with pending := ∅ } = c) :
    InTwoRounds t held r start := by
  obtain ⟨gone, hnodup, hmem, hkeys⟩ := toList_of_exchanges (hc.mem_orphans h)
  have hfirst := hc.first_round htaken
  have hsecond := hc.second_round h hnodup (fun x hx => (hmem x).1 hx) hkeys
  rw [← hfirst] at hsecond
  refine ⟨by rw [hfirst], by rw [hsecond]; exact hc.pending_eq, ?_, ?_⟩
  · rw [hsecond]
    refine ⟨⟨gone, hnodup, ?_, rfl⟩, rfl, hc.missing_eq⟩
    intro x
    rw [hmem]
    exact ⟨fun hx => ⟨hx, hr x⟩, And.left⟩
  · rw [hsecond]
    exact hc.mem_planned

end Taken

/-! ## §5. The three cascades -/

/-- A set with an element has a positive size. -/
theorem exists_size_eq {held : KeySet} {key : EntityKey} (h : key ∈ held) :
    ∃ n, held.size = n + 1 := by
  refine Nat.exists_eq_succ_of_ne_zero ?_
  intro hzero
  rw [← Std.ExtTreeSet.eq_empty_iff_size_eq_zero] at hzero
  rw [hzero] at h
  exact Std.ExtTreeSet.not_mem_empty h

/-- A cascade that reaches no further key is planned once. -/
theorem settle_eq_finish {t : Topology} {start : KeySet → Cascade} {held : KeySet}
    (h : (finish t held start).missing = ∅) (retries : Nat) :
    settle t start retries held = finish t held start := by
  cases retries with
  | zero => rfl
  | succ retries => simp [settle, h]

/-- While some key is held, the limit leaves room for two rounds. -/
theorem InTwoRounds.finish_eq {t : Topology} {held : KeySet} {r : Removal}
    {start : KeySet → Cascade} (h : InTwoRounds t held r (start held)) {key : EntityKey}
    (hkey : key ∈ held) : finish t held start = ((start held).round t held).round t held := by
  obtain ⟨limit, hsize⟩ := exists_size_eq hkey
  rw [finish, hsize, run_two h.marked_first h.pending_second]

theorem toList_singleton_key (key : EntityKey) : ({key} : KeySet).toList = [key] := by
  refine List.perm_singleton.1 ((List.perm_ext_iff_of_nodup (nodup_keys _)
    (List.nodup_singleton _)).2 ?_)
  intro other
  rw [Std.ExtTreeSet.mem_toList, List.mem_singleton, Std.ExtTreeSet.singleton_eq_insert,
    Std.ExtTreeSet.mem_insert]
  simp only [Std.ExtTreeSet.not_mem_empty, or_false, Std.LawfulEqCmp.compare_eq_iff_eq]
  exact eq_comm

theorem mem_keysOfQueue {t : Topology} {name : String} {key : EntityKey} :
    key ∈ keysOfQueue t name ↔
      key = .queue name ∨ ∃ b ∈ t.bindings.ofQueue name, key = .exchange b.exchange := by
  rw [keysOfQueue, Std.ExtTreeSet.mem_ofList, List.contains_iff_mem, List.mem_cons]
  simp only [List.mem_map, Std.ExtTreeSet.mem_toList, BindingTable.exchangesOf,
    Std.ExtTreeSet.mem_ofList, List.contains_iff_mem]
  constructor
  · rintro (hkey | ⟨x, ⟨b, hb, rfl⟩, rfl⟩)
    · exact Or.inl hkey
    · exact Or.inr ⟨b, hb, rfl⟩
  · rintro (hkey | ⟨b, hb, rfl⟩)
    · exact Or.inl hkey
    · exact Or.inr ⟨b.exchange, ⟨b, hb, rfl⟩, rfl⟩

theorem mem_keysOfExchange {t : Topology} {name : String} {key : EntityKey} :
    key ∈ keysOfExchange t name ↔
      key = .exchange name ∨ ∃ b ∈ t.bindings.ofExchange name, key = .queue b.queue := by
  rw [keysOfExchange, Std.ExtTreeSet.mem_ofList, List.contains_iff_mem, List.mem_cons]
  simp only [List.mem_map, Std.ExtTreeSet.mem_toList, BindingTable.queuesOf,
    Std.ExtTreeSet.mem_ofList, List.contains_iff_mem]
  constructor
  · rintro (hkey | ⟨q, ⟨b, hb, rfl⟩, rfl⟩)
    · exact Or.inl hkey
    · exact Or.inr ⟨b, hb, rfl⟩
  · rintro (hkey | ⟨b, hb, rfl⟩)
    · exact Or.inl hkey
    · exact Or.inr ⟨b.queue, ⟨b, hb, rfl⟩, rfl⟩

/-- A queue taken out: its bindings are planned away, and their exchanges are marked. -/
theorem take_queue {t : Topology} {name : String} {q : Queue}
    (hq : t.registry.queue? name = some q) :
    take t (keysOfQueue t name) {} (.queue name) =
      { marked := (∅ : NameSet).insertMany ((t.bindings.ofQueue name).map Binding.exchange)
        removed := (∅ : KeySet).insert (.queue name)
        removedBindings := (∅ : BindingSet).insertMany (t.bindings.ofQueue name)
        removals := [.queue name]
        ops := (t.recordOf (.queue name)).toList } := by
  have hself : (keysOfQueue t name).contains (.queue name) = true :=
    Std.ExtTreeSet.contains_iff_mem.2 (mem_keysOfQueue.2 (Or.inl rfl))
  have hends : ∀ b ∈ t.bindings.ofQueue name,
      (keysOfQueue t name).contains (.exchange b.exchange) = true :=
    fun b hb => Std.ExtTreeSet.contains_iff_mem.2 (mem_keysOfQueue.2 (Or.inr ⟨b, hb, rfl⟩))
  have hdrop := foldl_dropWithQueue (c := {}) hends (t.bindings.nodup_ofQueue name)
    fun b _ => Std.ExtTreeSet.not_mem_empty
  simp [take, hself, takeQueue, hq, hdrop, enter, Topology.recordOf]

theorem taken_queue {t : Topology} (h : t.WellFormed) {name : String} {q : Queue}
    (hq : t.registry.queue? name = some q) :
    Taken t (keysOfQueue t name) (.queue name)
      (take t (keysOfQueue t name) {} (.queue name)) := by
  rw [take_queue hq]
  refine ⟨rfl, rfl, rfl, rfl, ?_, ?_, ?_, ?_⟩
  · intro b
    rw [Std.ExtTreeSet.mem_insertMany_list, List.contains_iff_mem, h.table.mem_ofQueue]
    simp [Removal.covers]
  · intro x
    rw [Std.ExtTreeSet.mem_insertMany_list, List.contains_iff_mem, List.mem_map]
    simp only [Std.ExtTreeSet.not_mem_empty, false_or, Std.ExtTreeSet.mem_insertMany_list,
      List.contains_iff_mem]
  · intro x hx
    rw [Std.ExtTreeSet.mem_insertMany_list, List.contains_iff_mem, List.mem_map] at hx
    obtain ⟨b, hb, rfl⟩ := hx.resolve_left Std.ExtTreeSet.not_mem_empty
    exact Std.ExtTreeSet.contains_iff_mem.2 (mem_keysOfQueue.2 (Or.inr ⟨b, hb, rfl⟩))
  · intro x
    simp [Std.ExtTreeSet.contains_insert]

theorem inTwoRounds_queue {t : Topology} (h : t.WellFormed) {name : String}
    (hq : t.registry.hasQueue name = true) :
    InTwoRounds t (keysOfQueue t name) (.queue name)
      (ofKey (.queue name) (keysOfQueue t name)) := by
  obtain ⟨q, hq⟩ := Registry.hasQueue_iff.1 hq
  refine (taken_queue h hq).inTwoRounds h (fun x => by simp) ?_
  show ({.queue name} : KeySet).toList.foldl (take t (keysOfQueue t name)) {} = _
  rw [toList_singleton_key, List.foldl_cons, List.foldl_nil]

theorem mem_keysOfBinding (b : Binding) : EntityKey.exchange b.exchange ∈ keysOfBinding b := by
  simp [keysOfBinding, Std.ExtTreeSet.mem_ofList]

/-- A binding taken out: it is planned away itself, and its exchange is marked. -/
theorem ofBinding_eq (t : Topology) (b : Binding) :
    ofBinding t b (keysOfBinding b) =
      { marked := {b.exchange}, removedBindings := {b}, removals := [.binding b]
        ops := (t.recordOf (.binding b)).toList } := by
  simp only [ofBinding, Std.ExtTreeSet.contains_iff_mem.2 (mem_keysOfBinding b), ↓reduceIte,
    Topology.recordOf]
  split <;> rfl

theorem taken_binding {t : Topology} {b : Binding} (hb : b ∈ t.bindings) :
    Taken t (keysOfBinding b) (.binding b) (ofBinding t b (keysOfBinding b)) := by
  rw [ofBinding_eq]
  refine ⟨rfl, rfl, rfl, rfl, ?_, ?_, ?_, ?_⟩
  · intro c
    simp only [Std.ExtTreeSet.singleton_eq_insert, Std.ExtTreeSet.mem_insert,
      Std.ExtTreeSet.not_mem_empty, or_false, Std.LawfulEqCmp.compare_eq_iff_eq,
      Removal.covers, beq_iff_eq]
    constructor
    · rintro rfl
      exact ⟨hb, rfl⟩
    · rintro ⟨-, rfl⟩
      rfl
  · intro x
    simp only [Std.ExtTreeSet.singleton_eq_insert, Std.ExtTreeSet.mem_insert,
      Std.ExtTreeSet.not_mem_empty, or_false, Std.LawfulEqCmp.compare_eq_iff_eq,
      exists_eq_left']
  · intro x hx
    simp only [Std.ExtTreeSet.singleton_eq_insert, Std.ExtTreeSet.mem_insert,
      Std.ExtTreeSet.not_mem_empty, or_false, Std.LawfulEqCmp.compare_eq_iff_eq] at hx
    exact hx ▸ Std.ExtTreeSet.contains_iff_mem.2 (mem_keysOfBinding b)
  · intro x
    simp

theorem inTwoRounds_binding {t : Topology} (h : t.WellFormed) {b : Binding}
    (hb : b ∈ t.bindings) :
    InTwoRounds t (keysOfBinding b) (.binding b) (ofBinding t b (keysOfBinding b)) := by
  refine (taken_binding hb).inTwoRounds h (fun x => by simp) ?_
  have hkeys : (∅ : KeySet).toList = [] := Std.ExtTreeSet.toList_eq_nil_iff.2 rfl
  rw [ofBinding_eq]
  simp only [hkeys, List.foldl_nil]

/-- An exchange taken out: its bindings are planned away, and nothing is marked. -/
theorem take_exchange {t : Topology} {name : String} {x : Exchange}
    (hx : t.registry.exchange? name = some x) (hbuiltin : x.builtin = false) :
    take t (keysOfExchange t name) {} (.exchange name) =
      { removed := (∅ : KeySet).insert (.exchange name)
        removedBindings := (∅ : BindingSet).insertMany (t.bindings.ofExchange name)
        removals := [.exchange name]
        ops := (t.recordOf (.exchange name)).toList } := by
  have hself : (keysOfExchange t name).contains (.exchange name) = true :=
    Std.ExtTreeSet.contains_iff_mem.2 (mem_keysOfExchange.2 (Or.inl rfl))
  have hends : ∀ b ∈ t.bindings.ofExchange name,
      b ∈ (∅ : BindingSet) ∨ (keysOfExchange t name).contains (.queue b.queue) = true :=
    fun b hb => Or.inr
      (Std.ExtTreeSet.contains_iff_mem.2 (mem_keysOfExchange.2 (Or.inr ⟨b, hb, rfl⟩)))
  have hdrop := foldl_dropWithExchange (c := {}) hends
  simp [take, hself, takeExchange, hx, hbuiltin, hdrop, enter, Topology.recordOf]

/-- No other exchange loses a binding, so the first round ends the cascade already. -/
theorem inTwoRounds_exchange {t : Topology} (h : t.WellFormed) {name : String}
    (hx : t.Removable (.exchange name)) :
    InTwoRounds t (keysOfExchange t name) (.exchange name)
      (ofKey (.exchange name) (keysOfExchange t name)) := by
  obtain ⟨x, hx, hbuiltin⟩ := hx
  have hfirst : (ofKey (.exchange name) (keysOfExchange t name)).round t (keysOfExchange t name) =
      take t (keysOfExchange t name) {} (.exchange name) := by
    refine round_of_unmarked ?_ (by rw [take_exchange hx hbuiltin])
    show ({.exchange name} : KeySet).toList.foldl (take t (keysOfExchange t name)) {} = _
    rw [toList_singleton_key, List.foldl_cons, List.foldl_nil]
  rw [take_exchange hx hbuiltin] at hfirst
  refine .of_first hfirst rfl rfl ?_ ?_
  · refine ⟨⟨[], List.nodup_nil, ?_, rfl⟩, ?_, rfl⟩
    · intro y
      constructor
      · intro hy
        cases hy
      · rintro ⟨hy, hne⟩
        obtain ⟨-, ⟨b, -, rfl, hcovers⟩, -⟩ := h.strands_iff.1 hy
        exact absurd (by rw [beq_iff_eq.1 hcovers]) hne
    · show (t.recordOf (.exchange name)).toList = [.exchange name].filterMap t.recordOf
      rw [List.filterMap_cons]
      cases t.recordOf (.exchange name) <;> rfl
  · intro b
    rw [Std.ExtTreeSet.mem_insertMany_list, List.contains_iff_mem, h.table.mem_ofExchange]
    simp [Removal.covers]

/-- Where the planning of a removal starts. -/
def startOf (t : Topology) : Removal → KeySet → Cascade
  | .binding b => ofBinding t b
  | .queue name => ofKey (.queue name)
  | .exchange name => ofKey (.exchange name)

/-- The keys that are read for a removal before it is planned. -/
def keysOf (t : Topology) : Removal → KeySet
  | .binding b => keysOfBinding b
  | .queue name => keysOfQueue t name
  | .exchange name => keysOfExchange t name

section

variable {t : Topology} {r : Removal}

/-- Two rounds do for every removal of something that is there. -/
theorem inTwoRounds (h : t.WellFormed) (hr : t.Removable r) :
    InTwoRounds t (keysOf t r) r (startOf t r (keysOf t r)) := by
  cases r with
  | binding b => exact inTwoRounds_binding h hr
  | queue name => exact inTwoRounds_queue h hr
  | exchange name => exact inTwoRounds_exchange h hr

theorem exists_mem_keysOf (t : Topology) (r : Removal) : ∃ key, key ∈ keysOf t r := by
  cases r with
  | binding b => exact ⟨_, mem_keysOfBinding b⟩
  | queue name => exact ⟨_, mem_keysOfQueue.2 (Or.inl rfl)⟩
  | exchange name => exact ⟨_, mem_keysOfExchange.2 (Or.inl rfl)⟩

theorem plans_finish (h : t.WellFormed) (hr : t.Removable r) :
    Plans t r (finish t (keysOf t r) (startOf t r)) := by
  obtain ⟨key, hkey⟩ := exists_mem_keysOf t r
  rw [(inTwoRounds h hr).finish_eq hkey]
  exact (inTwoRounds h hr).plans

/-- The keys read for a removal are enough, and are not read again. -/
theorem settle_startOf (h : t.WellFormed) (hr : t.Removable r) (retries : Nat) :
    settle t (startOf t r) retries (keysOf t r) = finish t (keysOf t r) (startOf t r) :=
  settle_eq_finish (plans_finish h hr).missing_eq retries

theorem plans_settle (h : t.WellFormed) (hr : t.Removable r) (retries : Nat) :
    Plans t r (settle t (startOf t r) retries (keysOf t r)) := by
  rw [settle_startOf h hr]
  exact plans_finish h hr

end

/-- The removal of a queue. -/
theorem plans_removingQueue {t : Topology} (h : t.WellFormed) {name : String}
    (hq : t.registry.hasQueue name = true) : Plans t (.queue name) (removingQueue t name) :=
  plans_settle (r := .queue name) h hq (retries t)

/-- The removal of a binding. -/
theorem plans_removingBinding {t : Topology} (h : t.WellFormed) {b : Binding}
    (hb : b ∈ t.bindings) : Plans t (.binding b) (removingBinding t b) :=
  plans_settle (r := .binding b) h hb (retries t)

/-- The removal of an exchange. -/
theorem plans_removingExchange {t : Topology} (h : t.WellFormed) {name : String}
    (hx : t.Removable (.exchange name)) : Plans t (.exchange name) (removingExchange t name) :=
  plans_settle h hx (retries t)

end Cascade

end BrokerTopology
