/-
  BrokerTopology.Proofs.Sites — topologies compared site by site.

  A site is where something can be: under the name of an exchange or of a
  queue, or between a queue and an exchange.  One topology is within
  another if everything in it is in the other, at the same site.  What is
  there once a script has run, while it runs again and after a restart is
  compared in this way.

  What outlives the broker lasts in every greater topology as well.  What
  a restart recovers is within what there was, and has all that lasts of
  it.

  Main statements:
    * `Within.lasts` — what lasts in one topology lasts in a greater one.
    * `Puts.within`, `Puts.within_of` — a topology with one thing more.
    * `Recovers.retraces` — what a restart recovers, between what there
      was at the start and in the end.
-/
import BrokerTopology.Proofs.DurablePart
import BrokerTopology.Proofs.Footprints

namespace BrokerTopology

namespace Topology

/-! ## §1. Sites -/

/-- Where something can be: under a name, or between a queue and an exchange. -/
inductive Site where
  | exchange (name : String)
  | queue (name : String)
  | binding (b : Binding)
deriving DecidableEq

/-- What can be there. -/
inductive Fixture where
  | exchange (x : Exchange)
  | queue (q : Queue)
  | binding

/-- What is at a site, but for the number of a queue. -/
def look (t : Topology) : Site → Option Fixture
  | .exchange name => (t.registry.exchange? name).map .exchange
  | .queue name => ((t.registry.queue? name).map Queue.unnumbered).map .queue
  | .binding b => if t.bindings.contains b then some .binding else none

/-- Whether what is at a site outlives the broker. -/
def lasts (t : Topology) : Site → Bool
  | .exchange name => (t.registry.exchange? name).any fun x => x.definition.durable
  | .queue name => (t.registry.queue? name).any fun q => q.definition.persistent
  | .binding b => t.bindings.contains b && t.isPersistent b

variable {t t' t'' low : Topology}

theorem look_exchange {name : String} {x : Exchange} :
    t.look (.exchange name) = some (.exchange x) ↔ t.registry.exchange? name = some x := by
  simp [look, Option.map_eq_some_iff]

theorem look_queue {name : String} {q : Queue} :
    t.look (.queue name) = some (.queue q) ↔
      (t.registry.queue? name).map Queue.unnumbered = some q := by
  simp [look, Option.map_eq_some_iff]

theorem look_exchange_inj {name : String} (h : t'.look (.exchange name) = t.look (.exchange name)) :
    t'.registry.exchange? name = t.registry.exchange? name :=
  Option.map_injective (fun _ _ h => by injection h) h

theorem look_queue_inj {name : String} (h : t'.look (.queue name) = t.look (.queue name)) :
    (t'.registry.queue? name).map Queue.unnumbered =
      (t.registry.queue? name).map Queue.unnumbered :=
  Option.map_injective (fun _ _ h => by injection h) h

theorem look_binding {b : Binding} {found : Fixture} :
    t.look (.binding b) = some found ↔ b ∈ t.bindings ∧ found = .binding := by
  rw [BindingTable.mem_iff_contains]
  show (if t.bindings.contains b = true then some Fixture.binding else none) = some found ↔ _
  split
  next hb => simp [hb, eq_comm]
  next hb => simp [hb]

/-- What lasts is there. -/
theorem isSome_look_of_lasts {site : Site} (h : t.lasts site = true) :
    (t.look site).isSome = true := by
  cases site with
  | exchange name =>
    obtain ⟨x, hx, -⟩ := (Option.any_eq_true _ _).1 h
    rw [look, hx]
    rfl
  | queue name =>
    obtain ⟨q, hq, -⟩ := (Option.any_eq_true _ _).1 h
    rw [look, hq]
    rfl
  | binding b =>
    rw [look, if_pos (Bool.and_eq_true_iff.1 h).1]
    rfl

/-! ## §2. More and less -/

/-- Everything in one topology is in another. -/
def Within (t t' : Topology) : Prop :=
  ∀ site found, t.look site = some found → t'.look site = some found

theorem Within.refl (t : Topology) : t.Within t := fun _ _ h => h

theorem Within.trans (h : t.Within t') (h' : t'.Within t'') : t.Within t'' :=
  fun site found hfound => h' site found (h site found hfound)

theorem Within.look_eq (h : t.Within t') (h' : t'.Within t) (site : Site) :
    t.look site = t'.look site :=
  Option.ext fun found => ⟨h site found, h' site found⟩

theorem Within.isSome_look (h : t.Within t') {site : Site}
    (hthere : (t.look site).isSome = true) : (t'.look site).isSome = true := by
  obtain ⟨found, hfound⟩ := Option.isSome_iff_exists.1 hthere
  rw [h site found hfound]
  rfl

theorem Within.exchange (h : t.Within t') {name : String} {x : Exchange}
    (hx : t.registry.exchange? name = some x) : t'.registry.exchange? name = some x :=
  look_exchange.1 (h (.exchange name) (.exchange x) (look_exchange.2 hx))

theorem Within.queue (h : t.Within t') {name : String} {q : Queue}
    (hq : t.registry.queue? name = some q) :
    ∃ q', t'.registry.queue? name = some q' ∧ q'.unnumbered = q.unnumbered :=
  Option.map_eq_some_iff.1 (look_queue.1 (h (.queue name) (.queue q.unnumbered)
    (look_queue.2 (by rw [hq]; rfl))))

/-- What lasts in the smaller one lasts in the other. -/
theorem Within.lasts (h : t.Within t') {site : Site} (hlasts : t.lasts site = true) :
    t'.lasts site = true := by
  have hexchange : ∀ {name : String}, t.lasts (.exchange name) = true →
      t'.lasts (.exchange name) = true := by
    intro name hlasts
    obtain ⟨x, hx, hdurable⟩ := (Option.any_eq_true _ _).1 hlasts
    exact (Option.any_eq_true _ _).2 ⟨x, h.exchange hx, hdurable⟩
  have hqueue : ∀ {name : String}, t.lasts (.queue name) = true →
      t'.lasts (.queue name) = true := by
    intro name hlasts
    obtain ⟨q, hq, hpersistent⟩ := (Option.any_eq_true _ _).1 hlasts
    obtain ⟨q', hq', hrecord⟩ := h.queue hq
    have hdefinition := Queue.definition_congr hrecord
    exact (Option.any_eq_true _ _).2 ⟨q', hq', hdefinition ▸ hpersistent⟩
  cases site with
  | exchange name => exact hexchange hlasts
  | queue name => exact hqueue hlasts
  | binding b =>
    obtain ⟨hb, hpersistent⟩ := Bool.and_eq_true_iff.1 hlasts
    obtain ⟨hx, hq⟩ := isPersistent_iff.1 hpersistent
    have hb' := (look_binding.1 (h (.binding b) .binding
      (look_binding.2 ⟨BindingTable.mem_iff_contains.2 hb, rfl⟩))).1
    exact Bool.and_eq_true_iff.2 ⟨BindingTable.mem_iff_contains.1 hb',
      isPersistent_iff.2 ⟨hexchange hx, hqueue hq⟩⟩

/-! ## §3. One thing more -/

/-- A topology is another with something put at one site. -/
def Puts (t : Topology) (site : Site) (fixture : Fixture) (t' : Topology) : Prop :=
  ∀ other, t'.look other = if site = other then some fixture else t.look other

variable {site : Site} {fixture : Fixture}

theorem Puts.look_site (h : t.Puts site fixture t') : t'.look site = some fixture :=
  (h site).trans (if_pos rfl)

/-- Where there was nothing, nothing is lost. -/
theorem Puts.within (h : t.Puts site fixture t') (hfree : t.look site = none) : t.Within t' := by
  intro other found hfound
  rw [h, if_neg]
  · exact hfound
  · rintro rfl
    cases hfree.symm.trans hfound

/-- What is put there is within whatever has it. -/
theorem Puts.within_of (h : t.Puts site fixture t') (hwithin : t.Within t'')
    (hsite : t''.look site = some fixture) : t'.Within t'' := by
  intro other found hfound
  rw [h] at hfound
  split at hfound
  next hsame => rw [← hfound, ← hsame, hsite]
  next => exact hwithin other found hfound

theorem puts_addExchange (t : Topology) (d : ExchangeDef) :
    t.Puts (.exchange d.name) (.exchange { definition := d }) (t.addExchange d) := by
  intro other
  cases other with
  | exchange name =>
    simp only [look, exchange?_addExchange, Site.exchange.injEq]
    split
    next => rfl
    next => rfl
  | queue name => rfl
  | binding b => rfl

theorem puts_addQueue (t : Topology) (d : QueueDef) (owner : Option ConnectionId) :
    t.Puts (.queue d.name) (.queue { definition := d, owner }) (t.addQueue d owner) := by
  intro other
  cases other with
  | exchange name => rfl
  | queue name =>
    simp only [look, queue?_addQueue, Site.queue.injEq]
    split
    next => rfl
    next => rfl
  | binding b => rfl

theorem puts_addBinding (t : Topology) (b : Binding) :
    t.Puts (.binding b) .binding (t.addBinding b) := by
  obtain ⟨hregistry, -⟩ := addBinding_rest t b
  intro other
  cases other with
  | exchange name =>
    rw [look, hregistry]
    rfl
  | queue name =>
    rw [look, hregistry]
    rfl
  | binding c =>
    refine Option.ext fun found => ?_
    rw [look_binding, mem_addBinding]
    split
    next hsame =>
      injection hsame with hsame
      simp [hsame, eq_comm]
    next hne =>
      have hne : c ≠ b := fun heq => hne (heq ▸ rfl)
      rw [look_binding]
      simp [hne]

/-! ## §4. What is recovered -/

/-- Everything that is restored lasts. -/
theorem lasts_restore {nonce : UInt64} {s : DurableState} (h : s.Closed) {site : Site}
    (hthere : ((restore nonce s).look site).isSome = true) :
    (restore nonce s).lasts site = true := by
  obtain ⟨found, hfound⟩ := Option.isSome_iff_exists.1 hthere
  cases site with
  | exchange name =>
    obtain ⟨x, hx, -⟩ := Option.map_eq_some_iff.1 hfound
    refine (Option.any_eq_true _ _).2 ⟨x, hx, ?_⟩
    rcases (exchange?_restore h).1 hx with ⟨hmem, -⟩ | ⟨-, d, hd, rfl⟩
    · exact (builtins_recorded x hmem).2.2.1
    · rw [h.exchange_filed name d hd]
      rfl
  | queue name =>
    obtain ⟨unnumbered, hq, -⟩ := Option.map_eq_some_iff.1 hfound
    obtain ⟨q, hq, -⟩ := Option.map_eq_some_iff.1 hq
    have hd : some q.definition = s.queues[name]? := by
      rw [← definition_restore h name, hq]
      rfl
    refine (Option.any_eq_true _ _).2 ⟨q, hq, ?_⟩
    rw [h.queue_filed name q.definition hd.symm]
    rfl
  | binding b =>
    obtain ⟨hb, -⟩ := look_binding.1 hfound
    exact Bool.and_eq_true_iff.2 ⟨BindingTable.mem_iff_contains.1 hb,
      isPersistent_restore h (mem_bindings_restore.1 hb)⟩

/-- What recovers from a topology is within it. -/
theorem Recovers.within (h : t'.Recovers t) (hwf : t.WellFormed) : t'.Within t := by
  intro site found hfound
  cases site with
  | exchange name =>
    obtain ⟨x, hx, rfl⟩ := Option.map_eq_some_iff.1 hfound
    rcases (h.exchanges name x).1 hx with ⟨hmem, rfl⟩ | ⟨live, hlive, hbuiltin, -, rfl⟩
    · rw [look, hwf.builtins_present x hmem]
      rfl
    · obtain ⟨definition, builtin, state⟩ := live
      obtain rfl : builtin = false := hbuiltin
      obtain rfl : state = .active := (hwf.exchange_filed name _ hlive).2
      rw [look, hlive]
      rfl
  | queue name =>
    obtain ⟨unnumbered, hq, rfl⟩ := Option.map_eq_some_iff.1 hfound
    rw [h.queues, Option.map_eq_some_iff] at hq
    obtain ⟨q, hq, rfl⟩ := hq
    obtain ⟨hq, hpersistent⟩ := Option.filter_eq_some_iff.1 hq
    obtain ⟨definition, owner, state, incarnation⟩ := q
    obtain rfl : state = .active := (hwf.queue_filed name _ hq).2
    obtain rfl : owner = none := by
      rw [← Option.not_isSome_iff_eq_none, hwf.owned_iff_exclusive name _ hq]
      simpa using (Bool.and_eq_true_iff.1 hpersistent).2
    rw [look, hq]
    rfl
  | binding b =>
    obtain ⟨hb, rfl⟩ := look_binding.1 hfound
    exact look_binding.2 ⟨((h.bindings b).1 hb).1, rfl⟩

/-- It has all that lasts of it. -/
theorem Recovers.lasting (h : t'.Recovers t) (hwf : t.WellFormed) {site : Site}
    (hlasts : t.lasts site = true) : (t'.look site).isSome = true := by
  cases site with
  | exchange name =>
    obtain ⟨x, hx, hdurable⟩ := (Option.any_eq_true _ _).1 hlasts
    obtain ⟨x', hx'⟩ : ∃ x', t'.registry.exchange? name = some x' := by
      cases hbuiltin : x.builtin with
      | false => exact ⟨_, (h.exchanges name _).2 (Or.inr ⟨x, hx, hbuiltin, hdurable, rfl⟩)⟩
      | true =>
        rw [hwf.builtin_iff name x hx] at hbuiltin
        obtain ⟨y, hy, hsame⟩ := exchange_of_isBuiltin hbuiltin
        exact ⟨y, (h.exchanges name y).2 (Or.inl ⟨hy, hsame⟩)⟩
    rw [look, hx']
    rfl
  | queue name =>
    obtain ⟨q, hq, hpersistent⟩ := (Option.any_eq_true _ _).1 hlasts
    have hqueue := h.queues name
    rw [hq, Option.filter_some] at hqueue
    replace hqueue := hqueue.trans (congrArg _ (if_pos hpersistent))
    rw [look, hqueue]
    rfl
  | binding b =>
    obtain ⟨hb, hpersistent⟩ := Bool.and_eq_true_iff.1 hlasts
    have hb' := (h.bindings b).2
      ⟨BindingTable.mem_iff_contains.2 hb, isPersistent_iff.1 hpersistent⟩
    rw [look_binding.2 ⟨hb', rfl⟩]
    rfl

/-- A topology is between two others, and has all that lasts of the greater one. -/
structure Retraces (t low high : Topology) : Prop where
  above : low.Within t
  below : t.Within high
  /-- What is missing does not outlive the broker. -/
  lasting : ∀ site, high.lasts site = true → (t.look site).isSome = true

/-- The greater one itself is such a topology. -/
theorem Within.retraces (h : low.Within t) : t.Retraces low t :=
  ⟨h, .refl t, fun _ => isSome_look_of_lasts⟩

/-- So is what recovers from it, if all that was there at the start lasts. -/
theorem Recovers.retraces (h : t'.Recovers t) (hwf : t.WellFormed) (hlow : low.Within t)
    (hlasts : ∀ site, (low.look site).isSome = true → low.lasts site = true) :
    t'.Retraces low t := by
  refine ⟨?_, h.within hwf, fun site => h.lasting hwf⟩
  intro site found hfound
  have hlasting := hlow.lasts (hlasts site (by rw [hfound]; rfl))
  obtain ⟨found', hfound'⟩ := Option.isSome_iff_exists.1 (h.lasting hwf hlasting)
  rw [hfound', ← hlow site found hfound, h.within hwf site found' hfound']

end Topology

end BrokerTopology
