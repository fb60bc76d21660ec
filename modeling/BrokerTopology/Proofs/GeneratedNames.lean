/-
  BrokerTopology.Proofs.GeneratedNames — the queue names that the broker
  makes up are new.

  A name is made up by trying one candidate after the other until one is
  free; nothing bounds that search but the queues there are.  No two
  candidates are the same, so among one more of them than there are
  queues one is free, also if queues of that very form were there
  already.

  The counter only goes up, so a candidate that was handed out, or passed
  over, is never tried again.  That is why no name is handed out twice,
  even if the queue that had it is gone.

  Main statements:
    * `NameGenerator.format_injective` — different counter values make
      different names.
    * `NameGenerator.draws_iff`, `Registry.draws_drawName` — what the
      search comes to.
    * `Registry.made_up_names_new` — it ends at a free name, and no name
      comes twice.
-/
import BrokerTopology.Registry
import Mathlib.Data.List.Nodup
import Mathlib.Data.List.Perm.Subperm
import Mathlib.Tactic.ByContra
import Std.Data.String.ToNat

namespace BrokerTopology

namespace NameGenerator

/-! ## §1. Candidates -/

theorem format_injective (g : NameGenerator) : Function.Injective g.format := by
  intro n n' h
  exact Nat.repr_inj.1 ((String.append_right_inj _).1 h)

/-- The generator with so many counter values used up. -/
def advanced (g : NameGenerator) (n : Nat) : NameGenerator := { g with counter := g.counter + n }

theorem advanced_succ (g : NameGenerator) (n : Nat) : g.next.2.advanced n = g.advanced (n + 1) := by
  show NameGenerator.mk g.nonce (g.counter + 1 + n) = ⟨g.nonce, g.counter + (n + 1)⟩
  rw [Nat.add_right_comm, Nat.add_assoc]

/-- The candidate that is tried after so many others. -/
def candidate (g : NameGenerator) (n : Nat) : String := g.format (g.counter + n)

theorem candidate_succ (g : NameGenerator) (n : Nat) :
    g.next.2.candidate n = g.candidate (n + 1) := by
  show g.format (g.counter + 1 + n) = g.format (g.counter + (n + 1))
  rw [Nat.add_right_comm, Nat.add_assoc]

theorem candidate_injective (g : NameGenerator) : Function.Injective g.candidate := by
  intro n n' h
  exact Nat.add_left_cancel (g.format_injective h)

/-! ## §2. The search -/

/-- The search for a name that is not taken: candidates are passed over until one is free. -/
inductive Draws (taken : String → Bool) : NameGenerator → String → NameGenerator → Prop
  | free {g : NameGenerator} (hfree : taken g.next.1 = false) : Draws taken g g.next.1 g.next.2
  | pass {g g' : NameGenerator} {name : String} (htaken : taken g.next.1 = true)
      (hrest : Draws taken g.next.2 name g') : Draws taken g name g'

variable {taken : String → Bool}

/-- The search ends after passing over so many candidates if and only if these are taken and the
next one is not. -/
theorem draws_iff {g g' : NameGenerator} {name : String} :
    Draws taken g name g' ↔ ∃ passed, (∀ i < passed, taken (g.candidate i) = true) ∧
      taken (g.candidate passed) = false ∧ name = g.candidate passed ∧
      g' = g.advanced (passed + 1) := by
  constructor
  · intro h
    induction h with
    | free hfree => exact ⟨0, nofun, hfree, rfl, rfl⟩
    | @pass g _ _ htaken _ ih =>
      obtain ⟨passed, hpassed, hfree, rfl, rfl⟩ := ih
      refine ⟨passed + 1, ?_, ?_, g.candidate_succ passed, g.advanced_succ (passed + 1)⟩
      · intro i hi
        cases i with
        | zero => exact htaken
        | succ i =>
          rw [← candidate_succ]
          exact hpassed i (Nat.lt_of_succ_lt_succ hi)
      · rw [← candidate_succ]
        exact hfree
  · rintro ⟨passed, hpassed, hfree, rfl, rfl⟩
    induction passed generalizing g with
    | zero => exact .free hfree
    | succ passed ih =>
      rw [← candidate_succ, ← advanced_succ]
      refine .pass (hpassed 0 (Nat.zero_lt_succ _)) (ih ?_ ?_)
      · intro i hi
        rw [candidate_succ]
        exact hpassed (i + 1) (Nat.succ_lt_succ hi)
      · rw [candidate_succ]
        exact hfree

/-- There is one way only for the search to end. -/
theorem Draws.unique {g g' g'' : NameGenerator} {name name' : String}
    (h : Draws taken g name g') (h' : Draws taken g name' g'') : name = name' ∧ g' = g'' := by
  induction h with
  | free hfree =>
    cases h' with
    | free => exact ⟨rfl, rfl⟩
    | pass htaken =>
      rw [hfree] at htaken
      cases htaken
  | pass htaken _ ih =>
    cases h' with
    | free hfree =>
      rw [hfree] at htaken
      cases htaken
    | pass _ hrest => exact ih hrest

/-- If a candidate is free that comes soon enough, what is drawn is what the search comes to. -/
theorem draws_draw {g : NameGenerator} {skips passed : Nat} (hpassed : passed ≤ skips)
    (hfree : taken (g.candidate passed) = false) :
    Draws taken g (draw taken skips g).1 (draw taken skips g).2 := by
  induction skips generalizing g passed with
  | zero =>
    rw [Nat.le_zero.1 hpassed] at hfree
    exact .free hfree
  | succ skips ih =>
    rw [draw]
    by_cases htaken : taken g.next.1 = true
    · rw [if_pos htaken]
      cases passed with
      | zero =>
        -- the first candidate is taken, so it is not the one that is free
        have hsame : taken g.next.1 = false := hfree
        rw [hsame] at htaken
        cases htaken
      | succ passed =>
        rw [← candidate_succ] at hfree
        exact .pass htaken (ih (Nat.le_of_succ_le_succ hpassed) hfree)
    · rw [if_neg htaken]
      exact .free (Bool.eq_false_iff.2 htaken)

/-- Among one more candidate than there are names one is none of them. -/
theorem exists_candidate_not_mem (g : NameGenerator) (names : List String) :
    ∃ n ≤ names.length, g.candidate n ∉ names := by
  by_contra h
  have hsub : (List.range (names.length + 1)).map g.candidate ⊆ names := by
    intro name hname
    obtain ⟨n, hn, rfl⟩ := List.mem_map.1 hname
    by_contra hmem
    exact h ⟨n, Nat.le_of_lt_succ (List.mem_range.1 hn), hmem⟩
  have hnodup : ((List.range (names.length + 1)).map g.candidate).Nodup :=
    List.nodup_range.map g.candidate_injective
  have hlength := (hnodup.subperm hsub).length_le
  rw [List.length_map, List.length_range] at hlength
  omega

end NameGenerator

namespace Registry

/-! ## §3. Names of queues -/

theorem exists_free_candidate (r : Registry) :
    ∃ n ≤ r.queues.size, r.hasQueue (r.names.candidate n) = false := by
  obtain ⟨n, hn, hfree⟩ := r.names.exists_candidate_not_mem r.queues.keys
  rw [Std.ExtTreeMap.length_keys] at hn
  refine ⟨n, hn, ?_⟩
  rw [Std.ExtTreeMap.mem_keys] at hfree
  exact Bool.eq_false_iff.2 fun hmem => hfree (Std.ExtTreeMap.mem_iff_contains.2 hmem)

theorem draws_drawName (r : Registry) :
    r.names.Draws r.hasQueue r.drawName.1 r.drawName.2.names := by
  obtain ⟨n, hn, hfree⟩ := r.exists_free_candidate
  exact NameGenerator.draws_draw hn hfree

/-- What is done to a registry. -/
inductive Edit where
  | drawName
  | insertQueue (q : Queue)
  | removeQueue (name : String)
  | insertExchange (x : Exchange)
  | removeExchange (name : String)

/-- The registry afterwards. -/
def edit (r : Registry) : Edit → Registry
  | .drawName => r.drawName.2
  | .insertQueue q => r.insertQueue q
  | .removeQueue name => (r.takeQueue name).2
  | .insertExchange x => r.insertExchange x
  | .removeExchange name => (r.takeExchange name).2

/-- The names that are drawn, first to last. -/
def drawn (r : Registry) : List Edit → List String
  | [] => []
  | .drawName :: edits => r.drawName.1 :: r.drawName.2.drawn edits
  | e :: edits => (r.edit e).drawn edits

/-- What is drawn is a candidate whose counter value is used up by then. -/
theorem exists_passed (r : Registry) : ∃ passed, r.drawName.1 = r.names.candidate passed ∧
    r.drawName.2.names = r.names.advanced (passed + 1) := by
  obtain ⟨passed, -, -, hname, hnames⟩ := NameGenerator.draws_iff.1 r.draws_drawName
  exact ⟨passed, hname, hnames⟩

/-- Whatever is drawn later has a counter value that is not used up yet. -/
theorem exists_counter_of_mem_drawn {r : Registry} {edits : List Edit} {name : String}
    (h : name ∈ r.drawn edits) : ∃ n, r.names.counter ≤ n ∧ name = r.names.format n := by
  -- by the edits: only drawing touches the generator, and only to use counter values up
  induction edits generalizing r with
  | nil => cases h
  | cons e edits ih =>
    cases e with
    | drawName =>
      obtain ⟨passed, hname, hnames⟩ := r.exists_passed
      rcases List.mem_cons.1 h with rfl | h
      · exact ⟨_, Nat.le_add_right _ passed, hname⟩
      · obtain ⟨n, hn, rfl⟩ := ih h
        rw [hnames] at hn ⊢
        exact ⟨n, Nat.le_trans (Nat.le_add_right _ _) hn, rfl⟩
    | insertQueue q => exact ih (r := r.insertQueue q) h
    | removeQueue other => exact ih (r := (r.takeQueue other).2) h
    | insertExchange x => exact ih (r := r.insertExchange x) h
    | removeExchange other => exact ih (r := (r.takeExchange other).2) h

theorem nodup_drawn (r : Registry) (edits : List Edit) : (r.drawn edits).Nodup := by
  induction edits generalizing r with
  | nil => exact .nil
  | cons e edits ih =>
    cases e with
    | drawName =>
      refine List.nodup_cons.2 ⟨?_, ih _⟩
      intro hmem
      obtain ⟨passed, hname, hnames⟩ := r.exists_passed
      obtain ⟨n, hn, hagain⟩ := exists_counter_of_mem_drawn hmem
      -- the later one has a counter value above that of the first
      rw [hname, hnames] at hagain
      have heq : r.names.counter + passed = n := r.names.format_injective hagain
      rw [hnames, ← heq] at hn
      exact absurd hn (Nat.not_le.2 (Nat.lt_succ_self _))
    | insertQueue q => exact ih _
    | removeQueue other => exact ih _
    | insertExchange x => exact ih _
    | removeExchange other => exact ih _

/-- In every registry the search for a name ends, at a name that no queue has, after passing over
taken ones only, of which there are no more than queues.  What it comes to is what is drawn.  And
whatever is done to a registry between draws, no name is drawn twice. -/
theorem made_up_names_new (r : Registry) (edits : List Edit) :
    (∃ passed ≤ r.queues.size, (∀ i < passed, r.hasQueue (r.names.candidate i) = true) ∧
      r.hasQueue (r.names.candidate passed) = false ∧
      r.drawName = (r.names.candidate passed, { r with names := r.names.advanced (passed + 1) })) ∧
    (∀ name names, r.names.Draws r.hasQueue name names ↔ r.drawName = (name, { r with names })) ∧
    (r.drawn edits).Nodup := by
  have hdraws := r.draws_drawName
  refine ⟨?_, ?_, r.nodup_drawn edits⟩
  · obtain ⟨passed, hpassed, hfree, hname, hnames⟩ := NameGenerator.draws_iff.1 hdraws
    refine ⟨passed, ?_, hpassed, hfree, ?_⟩
    · -- a free candidate that comes earlier would not have been passed over
      obtain ⟨n, hn, hother⟩ := r.exists_free_candidate
      by_contra hmany
      have htaken := hpassed n (by omega)
      rw [hother] at htaken
      cases htaken
    · rw [← hname, ← hnames]
      rfl
  · intro name names
    constructor
    · intro h
      obtain ⟨rfl, rfl⟩ := h.unique hdraws
      rfl
    · intro h
      rw [h] at hdraws
      exact hdraws

example : ((initial 10).insertQueue
    { definition := ⟨"amq.gen-000000000000000a-1", true, false, false⟩ }).drawn
      [.drawName, .removeQueue "amq.gen-000000000000000a-1", .drawName] =
    ["amq.gen-000000000000000a-2", "amq.gen-000000000000000a-3"] := by decide +kernel

end Registry

end BrokerTopology
