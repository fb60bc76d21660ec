/-
  BrokerTopology.Proofs.CascadeRounds — a cascade ends of itself, within
  the keys that are read for it.

  A removal reads its keys before it is planned: the queue and the
  exchanges that it is bound to, the exchange and the queues that are
  bound to it, or both ends of the binding.  The planning could outrun
  them in two ways.  It could come to an entity whose key is not held, so
  that it has to be done again; and it could go round so often that the
  limit cuts it off while exchanges are still pending.

  Neither happens to the removal of something that is there.  What goes
  along is stranded exchanges, and one of those has bindings, all of
  which the removal takes: so its key is held, its queues are, and when
  it is taken out no other exchange loses a binding.

  `roundsFrom` goes round as `run` does, and says how often it did and
  which of the two ends it came to.

  Main statements:
    * `rounds_last` — rounds that are counted come to what the cascade
      comes to.
    * `roundsFrom_settled_iff` — they end of themselves exactly if nothing
      is left pending.
    * `contained` — two rounds at most, and nothing beyond the keys read.
    * `Host.cascade_within_keys` — so it is at every point of every run.
-/
import BrokerTopology.Proofs.Footprints

namespace BrokerTopology

namespace Cascade

/-! ## §1. Rounds that are counted -/

/-- Why no further round follows. -/
inductive Ending where
  /-- Nothing is pending. -/
  | settled
  /-- More rounds than the limit have left something pending. -/
  | cutOff

/-- What planning comes to, after how many rounds, and how it ends. -/
structure Rounds where
  last : Cascade
  count : Nat
  ending : Ending

variable {t : Topology} {held : KeySet} {r : Removal}

/-- Rounds until nothing is pending, or until those that left something pending are more than a
limit; some have passed already. -/
def roundsFrom (t : Topology) (held : KeySet) (limit passed : Nat) (c : Cascade) : Rounds :=
  let next := c.round t held
  -- the count is compared with the limit only if another round would follow
  if next.pending.isEmpty then { last := next, count := passed + 1, ending := .settled }
  else if limit < passed + 1 then { last := next, count := passed + 1, ending := .cutOff }
  else roundsFrom t held limit (passed + 1) next
termination_by limit - passed

/-- The rounds of a cascade, whose limit is the number of keys held. -/
def rounds (t : Topology) (held : KeySet) (start : KeySet → Cascade) : Rounds :=
  roundsFrom t held held.size 0 (start held)

/-- The rounds of the cascade of a removal, with the keys held that are read for it. -/
def roundsOf (t : Topology) (r : Removal) : Rounds := rounds t (keysOf t r) (startOf t r)

/-- To count the rounds changes nothing.  The limit of `run` goes down where the count goes up. -/
theorem roundsFrom_last {limit passed : Nat} (h : passed ≤ limit) (c : Cascade) :
    (roundsFrom t held limit passed c).last = run t held (limit - passed) c := by
  fun_induction roundsFrom t held limit passed c with
  | case1 passed c next hempty =>
    exact (run_of_settled (Std.ExtTreeSet.isEmpty_iff.1 hempty) _).symm
  | case2 passed c next hmore hover =>
    have hzero : limit - passed = 0 := by omega
    rw [hzero]
    rfl
  | case3 passed c next hmore hunder ih =>
    have hsucc : limit - passed = limit - (passed + 1) + 1 := by omega
    rw [ih (by omega), hsucc, run, if_neg hmore]

theorem rounds_last (start : KeySet → Cascade) :
    (rounds t held start).last = finish t held start :=
  roundsFrom_last (Nat.zero_le _) _

/-- The limit takes effect only with something still pending. -/
theorem roundsFrom_settled_iff {limit passed : Nat} {c : Cascade} :
    (roundsFrom t held limit passed c).ending = .settled ↔
      (roundsFrom t held limit passed c).last.pending = ∅ := by
  fun_induction roundsFrom t held limit passed c with
  | case1 passed c next hempty => exact iff_of_true rfl (Std.ExtTreeSet.isEmpty_iff.1 hempty)
  | case2 passed c next hmore hover =>
    refine iff_of_false nofun ?_
    intro hpending
    exact hmore (Std.ExtTreeSet.isEmpty_iff.2 hpending)
  | case3 passed c next hmore hunder ih => exact ih

/-- If the second round leaves nothing pending, the count does not come to three. -/
theorem InTwoRounds.count_le {start : KeySet → Cascade} (h : InTwoRounds t held r (start held))
    {key : EntityKey} (hkey : key ∈ held) : (rounds t held start).count ≤ 2 := by
  obtain ⟨limit, hsize⟩ := exists_size_eq hkey
  unfold rounds roundsFrom
  simp only
  split
  next => exact Nat.le_succ 1
  next =>
    have hunder : ¬ held.size < 0 + 1 := by omega
    rw [if_neg hunder]
    unfold roundsFrom
    simp [h.pending_second]

/-! ## §2. What a plan takes along -/

/-- The exchanges that go along are within the keys that the removal itself stays within. -/
theorem Plans.within {c : Cascade} (hc : Plans t r c) (h : t.WellFormed)
    (hwithin : r.Within t held) : ∀ r' ∈ c.removals, r'.Within t held := by
  obtain ⟨gone, -, hgone, hremovals⟩ := hc.removals_eq
  intro r' hr'
  rw [hremovals] at hr'
  rcases List.mem_cons.1 hr' with rfl | hr'
  · exact hwithin
  · obtain ⟨x, hx, rfl⟩ := List.mem_map.1 hr'
    obtain ⟨-, ⟨b, hb, hbx, hcovers⟩, hall⟩ := h.strands_iff.1 ((hgone x).1 hx).1
    refine ⟨nofun, ?_, ?_⟩
    · intro y hy
      injection hy with hy
      rw [← hy, ← hbx]
      exact (hwithin.covers b hb hcovers).1
    · intro c hcmem hcx
      exact hwithin.covers c hcmem (hall c hcmem (beq_iff_eq.1 hcx))

/-- They take no binding along that the removal itself would leave. -/
theorem Plans.covers_iff {c : Cascade} (hc : Plans t r c) (h : t.WellFormed) {b : Binding}
    (hb : b ∈ t.bindings) : (∃ r' ∈ c.removals, r'.covers b = true) ↔ r.covers b = true := by
  obtain ⟨gone, -, hgone, hremovals⟩ := hc.removals_eq
  rw [hremovals]
  constructor
  · rintro ⟨r', hr', hcovers⟩
    rcases List.mem_cons.1 hr' with rfl | hr'
    · exact hcovers
    · obtain ⟨x, hx, rfl⟩ := List.mem_map.1 hr'
      exact (h.strands_iff.1 ((hgone x).1 hx).1).2.2 b hb (beq_iff_eq.1 hcovers)
  · intro hcovers
    exact ⟨r, List.mem_cons_self, hcovers⟩

/-- A removal stays within the keys that are read for it. -/
theorem within_keysOf (h : t.WellFormed) (r : Removal) : r.Within t (keysOf t r) := by
  -- the keys are those of the operation that asks for it
  have hwithin : ∀ op : Operation, op.removal? t = some r → op.keys? t = some (keysOf t r) →
      r.Within t (keysOf t r) :=
    fun _ hr hheld => Operation.within_of_removal? h hr hheld
  cases r with
  | binding b => exact hwithin (.unbind b) rfl rfl
  | queue name => exact hwithin (.deleteQueue name false false) rfl rfl
  | exchange name => exact hwithin (.deleteExchange name false) rfl rfl

/-! ## §3. Cascades that end of themselves -/

/-- Rounds that end of themselves, the second at the latest, with a plan for a removal that stays
within some keys. -/
structure Rounds.Contained (p : Rounds) (t : Topology) (held : KeySet) (r : Removal) : Prop where
  settled : p.ending = .settled
  count_le : p.count ≤ 2
  asked : r ∈ p.last.removals
  /-- No key is missing. -/
  missing_eq : p.last.missing = ∅
  /-- Nothing is planned away twice. -/
  nodup : p.last.removals.Nodup
  /-- Held is what is planned away, and both ends of every binding that goes with it. -/
  within : ∀ r ∈ p.last.removals, r.Within t held
  /-- The bindings planned away are those that go. -/
  mem_planned : ∀ b, b ∈ p.last.removedBindings ↔
    b ∈ t.bindings ∧ ∃ r ∈ p.last.removals, r.covers b = true

/-- The removal of something that is there. -/
theorem contained (h : t.WellFormed) (hr : t.Removable r) :
    (roundsOf t r).Contained t (keysOf t r) r := by
  obtain ⟨key, hkey⟩ := exists_mem_keysOf t r
  have htwo := inTwoRounds h hr
  have hlast : (roundsOf t r).last = _ := (rounds_last (startOf t r)).trans (htwo.finish_eq hkey)
  have hplans := htwo.plans
  have hplanned := htwo.mem_planned
  rw [← hlast] at hplans hplanned
  refine ⟨?_, htwo.count_le hkey, ?_, hplans.missing_eq, hplans.nodup_removals,
    hplans.within h (within_keysOf h r), ?_⟩
  · refine roundsFrom_settled_iff.2 ?_
    show (roundsOf t r).last.pending = ∅
    rw [hlast]
    exact htwo.pending_second
  · obtain ⟨gone, -, -, hremovals⟩ := hplans.removals_eq
    rw [hremovals]
    exact List.mem_cons_self
  · intro b
    rw [hplanned b]
    exact and_congr_right fun hb => (hplans.covers_iff h hb).symm

end Cascade

/-! ## §4. Requests -/

/-- A change that records a cascade, and carries it out on a state. -/
structure Change.CarriesOut {α : Type} (change : Change α) (s : LiveState) (c : Cascade) :
    Prop where
  ops_eq : change.ops = c.ops
  live_eq : change.live = s.remove c.removals

/-- What an operation removes from: a consumer that leaves is counted off first. -/
def Operation.removesFrom (s : LiveState) : Operation → LiveState
  | detachConsumer name => s.dropConsumer name
  | _ => s

namespace LiveState

open Cascade

variable {s : LiveState} {r : Removal}

/-- What was planned with the keys first read is what is carried out. -/
theorem carryOut_carriesOut {α : Type} {t : Topology} (h : t.WellFormed) (hr : t.Removable r)
    (s : LiveState) (answer : α) :
    (s.carryOut (settle t (startOf t r) (retries t) (keysOf t r)) answer).CarriesOut s
      (roundsOf t r).last := by
  rw [roundsOf, rounds_last, settle_startOf h hr]
  exact ⟨rfl, rfl⟩

theorem detachConsumer_carriesOut (h : s.topology.WellFormed) {name : String}
    {incarnation : Option Nat} {change : Change Nat}
    (hlast : s.topology.references.consumersOf name = 1)
    (hauto : (s.topology.registry.queue? name).any (fun q => q.definition.autoDelete) = true)
    (hd : detachConsumer name incarnation s = .ok change) :
    s.topology.Removable (.queue name) ∧
      change.CarriesOut (s.dropConsumer name) (roundsOf s.topology (.queue name)).last := by
  obtain ⟨hname, references, hremoved, rfl⟩ := detachConsumer_last hlast hauto hd
  rw [← dropConsumer_of_removed hremoved]
  exact ⟨hname, carryOut_carriesOut (r := .queue name) h hname _ 0⟩

end LiveState

namespace Operation

open Cascade

/-- An operation that is decided to be a removal is one of something that is there, and carries
out what is planned with the keys that it holds. -/
theorem decide_carriesOut {matcher : Matcher} {conn : ConnectionId} {op : Operation} {s : LiveState}
    {r : Removal} {change : Change Answer} (h : s.topology.WellFormed)
    (hr : op.removal? s.topology = some r) (hd : op.decide matcher conn s = .ok change) :
    s.topology.Removable r ∧ op.keys? s.topology = some (keysOf s.topology r) ∧
      change.CarriesOut (op.removesFrom s) (roundsOf s.topology r).last := by
  cases op with
  | unbind b =>
    injection hr with hr
    subst hr
    obtain ⟨inner, hinner, rfl⟩ := ok_of_map hd
    obtain ⟨hb, rfl⟩ := LiveState.unbind_ok hinner
    exact ⟨hb, rfl, LiveState.carryOut_carriesOut (r := .binding b) h hb s _⟩
  | deleteQueue name ifUnused ifEmpty =>
    injection hr with hr
    subst hr
    obtain ⟨inner, hinner, rfl⟩ := ok_of_map hd
    obtain ⟨hq, rfl⟩ := LiveState.deleteQueue_ok hinner
    exact ⟨hq, rfl, LiveState.carryOut_carriesOut (r := .queue name) h hq s _⟩
  | deleteExchange name ifUnused =>
    injection hr with hr
    subst hr
    obtain ⟨inner, hinner, rfl⟩ := ok_of_map hd
    obtain ⟨hx, rfl⟩ := LiveState.deleteExchange_ok hinner
    exact ⟨hx, rfl, LiveState.carryOut_carriesOut h hx s _⟩
  | detachConsumer name =>
    obtain ⟨hlast, hauto, rfl⟩ := last_of_removal? hr
    obtain ⟨inner, hinner, rfl⟩ := ok_of_map hd
    obtain ⟨hthere, hops, hlive⟩ := LiveState.detachConsumer_carriesOut h hlast hauto hinner
    exact ⟨hthere, rfl, hops, hlive⟩
  | _ => cases hr

end Operation

/-! ## §5. Runs -/

namespace Host

open Cascade

/-- At every point of every run, also between the parts of a request: of whatever may be removed,
the planning, done with the keys that are read for it, goes round twice at most, and ends because
nothing is pending; it misses no key, plans nothing away twice, and what it plans away is held,
with both ends of every binding that goes along.  And every removal that is accepted — an
unbinding, a deletion on any connection, or the last consumer leaving an auto-delete queue — is of
something that may be removed, and records and carries out what that planning comes to. -/
theorem cascade_within_keys {medium handle : Type} [Medium medium handle]
    (settings : BrokerSettings) (nonce : UInt64) (shared : Option Mailboxes) (first : medium)
    (events : List (Event medium)) {number : Nat} {s : Server handle}
    (hs : ((fresh settings nonce shared first).afterAll events).server? number = some s)
    {m m' : medium} {b : Broker handle} (hmoves : Broker.Moves (s.broker, m) (b, m')) :
    let t := b.live.topology
    (∀ r, t.Removable r → (roundsOf t r).Contained t (keysOf t r) r) ∧
      (∀ matcher conn op r change, op.removal? t = some r →
        Operation.decide matcher conn op b.live = .ok change →
          t.Removable r ∧ op.keys? t = some (keysOf t r) ∧
            change.CarriesOut (op.removesFrom b.live) (roundsOf t r).last) ∧
      ∀ name incarnation change, (Operation.detachConsumer name).removal? t = some (.queue name) →
        LiveState.detachConsumer name incarnation b.live = .ok change →
          t.Removable (.queue name) ∧
            change.CarriesOut (b.live.dropConsumer name) (roundsOf t (.queue name)).last := by
  have hwf : b.live.topology.WellFormed :=
    hmoves.calls.wellFormed (((sound_fresh settings nonce shared first).afterAll events).server? hs)
  refine ⟨fun r hr => contained hwf hr, ?_, ?_⟩
  · intro matcher conn op r change hr hd
    exact Operation.decide_carriesOut hwf hr hd
  · intro name incarnation change hr hd
    obtain ⟨hlast, hauto, -⟩ := Operation.last_of_removal? hr
    exact LiveState.detachConsumer_carriesOut hwf hlast hauto hd

/-- A connection is being closed that owns two queues, bound to one auto-delete exchange: the first
is deleted, and the exchange goes with the second, which takes both rounds. -/
theorem cascade_within_keys_of_closing :
    ∃ (s : Server Unit) (b : Broker Unit) (m : MemoryLog),
      ((fresh {} 1 none ({} : MemoryLog)).afterAll
        [.start, .ask 0 (.operation (.declareExchange ⟨"x", .topic, true, true⟩ false)),
          .ask 0 .connect, .ask 0 (.openChannel ⟨1⟩),
          .ask 0 (.onChannel ⟨1⟩ 1 (.declareQueue ⟨"p", false, true, false⟩ false)),
          .ask 0 (.onChannel ⟨1⟩ 1 (.declareQueue ⟨"q", false, true, false⟩ false)),
          .ask 0 (.onChannel ⟨1⟩ 1 (.bind ⟨"p", "x", "a"⟩)),
          .ask 0 (.onChannel ⟨1⟩ 1 (.bind ⟨"q", "x", "a"⟩)),
          .ask 0 (.onChannel ⟨1⟩ 1 (.bind ⟨"q", "x", "b"⟩))]).server? 0 = some s ∧
      Broker.Moves (s.broker, ({} : MemoryLog)) (b, m) ∧
      b.live.topology.Removable (.queue "q") ∧
      (roundsOf b.live.topology (.queue "q")).count = 2 ∧
      (roundsOf b.live.topology (.queue "q")).Contained b.live.topology
        (keysOf b.live.topology (.queue "q")) (.queue "q") := by
  obtain ⟨s, hs, hthere, hcount⟩ : ∃ s : Server Unit,
      ((fresh {} 1 none ({} : MemoryLog)).afterAll
        [.start, .ask 0 (.operation (.declareExchange ⟨"x", .topic, true, true⟩ false)),
          .ask 0 .connect, .ask 0 (.openChannel ⟨1⟩),
          .ask 0 (.onChannel ⟨1⟩ 1 (.declareQueue ⟨"p", false, true, false⟩ false)),
          .ask 0 (.onChannel ⟨1⟩ 1 (.declareQueue ⟨"q", false, true, false⟩ false)),
          .ask 0 (.onChannel ⟨1⟩ 1 (.bind ⟨"p", "x", "a"⟩)),
          .ask 0 (.onChannel ⟨1⟩ 1 (.bind ⟨"q", "x", "a"⟩)),
          .ask 0 (.onChannel ⟨1⟩ 1 (.bind ⟨"q", "x", "b"⟩))]).server? 0 = some s ∧
      let between := (s.broker.perform (LiveState.deleteQueue ⟨1⟩ "p" false false)
        ({} : MemoryLog)).2.1.live.topology
      between.registry.hasQueue "q" = true ∧ (roundsOf between (.queue "q")).count = 2 :=
    ⟨_, (Option.some_get (by decide +kernel)).symm, by decide +kernel, by decide +kernel⟩
  have hmoves : Broker.Moves (s.broker, ({} : MemoryLog))
      (s.broker.perform (LiveState.deleteQueue ⟨1⟩ "p" false false) {}).2 :=
    .single (.release ⟨1⟩ "p" _ _)
  exact ⟨s, _, _, hs, hmoves, hthere, hcount,
    (cascade_within_keys _ _ _ _ _ hs hmoves).1 _ hthere⟩

end Host

end BrokerTopology
