/-
  BrokerTopology.Proofs.AutoDelete — nothing outlives its last
  reference.

  An auto-delete exchange goes with its last binding and an auto-delete
  queue with its last consumer.  So one that is there without any has
  never had one: it is fresh.  This is a statement about the past, and it
  is carried from one topology to the next by a relation between the two,
  `NoneMissed`: what is there before and after has not just lost its last
  reference.

  The relation does not compose, since a name may be deleted and declared
  again.  So the past is that of single moves, and a point of a run lies
  also between two of the deletions that closing a connection comes to.

  Main statements:
    * `Topology.Without.noneMissed` — a removal, with all that goes along,
      misses nothing.
    * `Broker.Move.noneMissed` — nor does any move.
    * `Broker.Run.fresh_of_unreferenced` — what is there without references
      has had none since it was taken in, in every run.
    * `Server.run_serve` — whatever is asked of a server extends the run of
      its broker.
-/
import BrokerTopology.Proofs.OperationEffects

namespace BrokerTopology

namespace Topology

/-! ## §1. From one topology to a later one -/

/-- Nothing is bound to an exchange. -/
def Unbound (t : Topology) (x : String) : Prop := ∀ b ∈ t.bindings, b.exchange ≠ x

/-- Of two topologies, one right after the other: no record is replaced by another, and nothing
that goes with its last reference has lost it and is still there. -/
structure NoneMissed (t t' : Topology) : Prop where
  exchange_kept : ∀ x e e', t.registry.exchange? x = some e →
    t'.registry.exchange? x = some e' → e' = e
  queue_kept : ∀ q r r', t.registry.queue? q = some r → t'.registry.queue? q = some r' → r' = r
  unbound : ∀ x e, t.registry.exchange? x = some e → t'.registry.exchange? x = some e →
    e.definition.autoDelete = true → t'.Unbound x → t.Unbound x
  unused : ∀ q r, t.registry.queue? q = some r → t'.registry.queue? q = some r →
    r.definition.autoDelete = true → t'.references.consumersOf q = 0 →
      t.references.consumersOf q = 0

theorem NoneMissed.refl (t : Topology) : t.NoneMissed t := by
  refine ⟨?_, ?_, fun _ _ _ _ _ hx => hx, fun _ _ _ _ _ hq => hq⟩
  · intro x e e' he he'
    rw [he] at he'
    injection he' with he'
    exact he'.symm
  · intro q r r' hr hr'
    rw [hr] at hr'
    injection hr' with hr'
    exact hr'.symm

theorem builtins_last : ∀ x ∈ Exchange.builtins, x.definition.autoDelete = false := by
  decide

/-- No built-in exchange is declared to go with its last binding. -/
theorem WellFormed.autoDeletes_of_declared {t : Topology} (h : t.WellFormed) {x : String}
    {e : Exchange} (he : t.registry.exchange? x = some e) (hauto : e.definition.autoDelete = true) :
    t.autoDeletes x = true := by
  refine autoDeletes_iff.2 ⟨e, he, hauto, ?_⟩
  rw [h.builtin_iff x e he, Bool.eq_false_iff]
  intro hbuiltin
  obtain ⟨y, hy, rfl⟩ := exchange_of_isBuiltin hbuiltin
  rw [h.builtins_present y hy] at he
  injection he with he
  rw [← he, builtins_last y hy] at hauto
  cases hauto

/-- Nothing is bound to an exchange when its count says so. -/
theorem WellFormed.unbound_iff {t : Topology} (h : t.WellFormed) {x : String} :
    t.Unbound x ↔ t.references.bindingsOf x = 0 := by
  rw [h.bindings_counted, List.length_eq_zero_iff, List.eq_nil_iff_forall_not_mem]
  constructor
  · intro hunbound b hb
    obtain ⟨hb, hx⟩ := h.table.mem_ofExchange.1 hb
    exact hunbound b hb hx
  · intro hnone b hb hx
    exact hnone b (h.table.mem_ofExchange.2 ⟨hb, hx⟩)

/-- To draw names takes nothing away. -/
theorem noneMissed_withGenerator (t : Topology) (g : NameGenerator) :
    t.NoneMissed (t.withGenerator g) := by
  obtain ⟨hexchange, hqueue, hunbound, hunused⟩ := NoneMissed.refl t
  exact ⟨hexchange, hqueue, hunbound, hunused⟩

/-- A removal takes every auto-delete exchange along whose last bindings it takes. -/
theorem Without.noneMissed {t t' : Topology} {r : Removal} (h : t.WellFormed)
    (hwithout : t'.Without t r) : t.NoneMissed t' := by
  refine ⟨?_, ?_, ?_, ?_⟩
  · intro x e e' he he'
    rw [hwithout.exchanges] at he'
    split at he'
    next => cases he'
    next =>
      rw [he] at he'
      injection he' with he'
      exact he'.symm
  · intro q s s' hs hs'
    rw [hwithout.queues] at hs'
    split at hs'
    next => cases hs'
    next =>
      rw [hs] at hs'
      injection hs' with hs'
      exact hs'.symm
  · intro x e he he' hauto hunbound b hb hx
    -- every binding that the exchange had is covered, or it would still be there
    have hcovered : ∀ c ∈ t.bindings, c.exchange = x → r.covers c = true := by
      intro c hc hcx
      by_contra hleft
      exact hunbound c ((hwithout.bindings c).2 ⟨hc, Bool.eq_false_iff.2 hleft⟩) hcx
    have hstrands : t.strands r x = true :=
      h.strands_iff.2
        ⟨h.autoDeletes_of_declared he hauto, ⟨b, hb, hx, hcovered b hb hx⟩, hcovered⟩
    rw [hwithout.exchanges, if_pos (Or.inr hstrands)] at he'
    cases he'
  · intro q s _ hs' _ hq
    rw [hwithout.queues] at hs'
    rw [hwithout.consumers] at hq
    split at hs'
    next => cases hs'
    next hne =>
      rw [if_neg hne] at hq
      exact hq

/-! ## §2. Taking in -/

theorem noneMissed_addExchange {t : Topology} {d : ExchangeDef}
    (hnew : t.registry.exchange? d.name = none) : t.NoneMissed (t.addExchange d) := by
  refine ⟨?_, ?_, fun _ _ _ _ _ hx => hx, fun _ _ _ _ _ hq => hq⟩
  · intro x e e' he he'
    rw [exchange?_addExchange] at he'
    split at he'
    next hname =>
      rw [hname, he] at hnew
      cases hnew
    next =>
      rw [he] at he'
      injection he' with he'
      exact he'.symm
  · intro q r r' hr hr'
    rw [show t.registry.queue? q = some r' from hr'] at hr
    injection hr

theorem noneMissed_addQueue {t : Topology} {d : QueueDef} {owner : Option ConnectionId}
    (hnew : t.registry.queue? d.name = none) : t.NoneMissed (t.addQueue d owner) := by
  refine ⟨?_, ?_, fun _ _ _ _ _ hx => hx, fun _ _ _ _ _ hq => hq⟩
  · intro x e e' he he'
    rw [show t.registry.exchange? x = some e' from he'] at he
    injection he
  · intro q r r' hr hr'
    rw [queue?_addQueue] at hr'
    split at hr'
    next hname =>
      rw [hname, hr] at hnew
      cases hnew
    next =>
      rw [hr] at hr'
      injection hr' with hr'
      exact hr'.symm

/-- Where the registry stays, and neither a binding nor a consumer goes. -/
theorem noneMissed_of_registry_eq {t t' : Topology} (hregistry : t'.registry = t.registry)
    (hbindings : ∀ b ∈ t.bindings, b ∈ t'.bindings)
    (hconsumers : ∀ q, t.references.consumersOf q ≤ t'.references.consumersOf q) :
    t.NoneMissed t' := by
  refine ⟨?_, ?_, ?_, ?_⟩
  · intro x e e' he he'
    rw [hregistry, he] at he'
    injection he' with he'
    exact he'.symm
  · intro q r r' hr hr'
    rw [hregistry, hr] at hr'
    injection hr' with hr'
    exact hr'.symm
  · intro x e _ _ _ hx b hb
    exact hx b (hbindings b hb)
  · intro q r _ _ _ hq
    exact Nat.le_zero.1 (hq ▸ hconsumers q)

theorem noneMissed_addBinding (t : Topology) (b : Binding) : t.NoneMissed (t.addBinding b) := by
  obtain ⟨hregistry, hconsumers⟩ := addBinding_rest t b
  refine noneMissed_of_registry_eq hregistry (fun c hc => mem_addBinding.2 (Or.inr hc)) ?_
  intro q
  exact Nat.le_of_eq (by rw [ReferenceCounts.consumersOf, ReferenceCounts.consumersOf, hconsumers])

theorem noneMissed_attach (t : Topology) (name : String) :
    t.NoneMissed { t with references := t.references.consumerAdded name } := by
  refine noneMissed_of_registry_eq rfl (fun _ hb => hb) ?_
  intro q
  show _ ≤ (t.references.consumerAdded name).consumersOf q
  rw [ReferenceCounts.consumersOf_consumerAdded]
  split
  next hname =>
    rw [hname]
    exact Nat.le_succ _
  next => exact Nat.le_refl _

/-- A consumer leaves that is not the last of an auto-delete queue. -/
theorem noneMissed_detach {t : Topology} {name : String} {n : Nat} {references : ReferenceCounts}
    (hr : t.references.consumerRemoved? name = some (n, references))
    (hstays : n = 0 → (t.registry.queue? name).any (fun q => q.definition.autoDelete) = false) :
    t.NoneMissed { t with references } := by
  obtain ⟨hexchange, hqueue, hunbound, -⟩ := NoneMissed.refl t
  refine ⟨hexchange, hqueue, hunbound, ?_⟩
  intro q r hq _ hauto hidle
  obtain ⟨-, hleft, -⟩ := ReferenceCounts.consumersOf_consumerRemoved? hr q
  rw [show references.consumersOf q = 0 from hidle] at hleft
  split at hleft
  next hname =>
    have hgoes := hstays hleft.symm
    rw [hname, hq] at hgoes
    rw [show r.definition.autoDelete = false from hgoes] at hauto
    cases hauto
  next => exact hleft.symm

end Topology

/-! ## §3. Decisions -/

/-- A decision after which nothing is there that should have gone. -/
def Decision.MissesNone {α : Type} (d : Decision α) : Prop :=
  ∀ s change, s.topology.WellFormed → d s = .ok change →
    s.topology.NoneMissed change.live.topology

namespace Operation

open BrokerTopology.Topology

variable {matcher : Matcher} {conn : ConnectionId} {op : Operation} {s s' : LiveState}

/-- No effect misses what should go. -/
theorem Effect.noneMissed (h : s.topology.WellFormed) (heffect : Effect matcher conn s op s') :
    s.topology.NoneMissed s'.topology := by
  cases heffect with
  | same => exact .refl _
  | names => exact noneMissed_withGenerator _ _
  | exchange hnew => exact noneMissed_addExchange hnew
  | @queue _ d' _ g _ _ hnew =>
    -- the generator is no part of what may be missed
    have hadded : (s.topology.withGenerator g).NoneMissed
        ((s.topology.withGenerator g).addQueue d' (LiveState.ownerOf conn d')) :=
      noneMissed_addQueue hnew
    exact ⟨hadded.exchange_kept, hadded.queue_kept, hadded.unbound, hadded.unused⟩
  | binding => exact noneMissed_addBinding s.topology _
  | removed _ hwithout => exact hwithout.topology.noneMissed h
  | published => exact .refl _
  | fetched => exact .refl _
  | purged => exact .refl _
  | joined => exact noneMissed_attach s.topology _
  | nobodyLeft => exact .refl _
  | @left queue n references hr hstays =>
    refine noneMissed_detach hr ?_
    rintro rfl
    have hcount := (ReferenceCounts.consumersOf_consumerRemoved? hr queue).1
    simpa [removal?, hcount] using hstays

end Operation

/-- No operation misses what should go. -/
theorem Operation.missesNone (matcher : Matcher) (conn : ConnectionId) (op : Operation) :
    (op.decide matcher conn).MissesNone :=
  fun _ _ h hchange => (op.effect h hchange).noneMissed h

namespace LiveState

theorem attachConsumer_missesNone (conn : ConnectionId) (name : String) :
    (attachConsumer conn name).MissesNone :=
  fun _ _ h hchange => (attachConsumer_effect .byKey hchange).noneMissed h

theorem detachConsumer_missesNone (name : String) (incarnation : Option Nat) :
    (detachConsumer name incarnation).MissesNone :=
  fun _ _ h hchange => (detachConsumer_effect .byKey .admin h hchange).2.noneMissed h

theorem deleteQueue_missesNone (conn : ConnectionId) (name : String) (ifUnused ifEmpty : Bool) :
    (deleteQueue conn name ifUnused ifEmpty).MissesNone :=
  fun _ _ h hchange => (deleteQueue_without h hchange).1.topology.noneMissed h

end LiveState

/-! ## §4. Moves -/

section

variable {medium handle : Type} [Medium medium handle]

namespace Broker

theorem perform_noneMissed {α : Type} {d : Decision α} (hd : d.MissesNone) {b : Broker handle}
    (h : b.live.topology.WellFormed) (m : medium) :
    b.live.topology.NoneMissed (b.perform d m).2.1.live.topology := by
  refine perform_live (P := fun s => b.live.topology.NoneMissed s.topology) (.refl _) ?_ ?_ m
  · exact fun _ _ => Topology.noneMissed_withGenerator _ _
  · exact fun _ hchange => hd _ _ h hchange

/-- No move misses what should go. -/
theorem Move.noneMissed {before after : Broker handle × medium}
    (h : before.1.live.topology.WellFormed) (hmove : Move before after) :
    before.1.live.topology.NoneMissed after.1.live.topology := by
  cases hmove with
  | operation conn op b m => exact perform_noneMissed (op.missesNone b.settings.matcher conn) h m
  | join conn queue b m =>
    exact perform_noneMissed (LiveState.attachConsumer_missesNone conn queue) h m
  | leave queue incarnation b m =>
    exact perform_noneMissed (LiveState.detachConsumer_missesNone queue (some incarnation)) h m
  | release conn queue b m =>
    exact perform_noneMissed (LiveState.deleteQueue_missesNone conn queue false false) h m
  | compact b m =>
    show b.live.topology.NoneMissed (b.compact m).2.1.live.topology
    rw [b.compact_live m]
    exact .refl _
  | shutdown b m =>
    show b.live.topology.NoneMissed (b.shutdown m).2.1.live.topology
    rw [b.shutdown_live m]
    exact .refl _
  | connect b m => exact .refl _

/-! ## §5. Runs -/

/-- A broker, and the topologies that it had before, the latest first: it was opened, and then
moved, with the medium in any state each time. -/
inductive Run (medium : Type) {handle : Type} [Medium medium handle] :
    Broker handle → List Topology → Prop
  | opened {settings : BrokerSettings} {nonce : UInt64} {mailboxes : Mailboxes} {m : medium}
      {b : Broker handle} (hopen : (openOn settings nonce mailboxes m).1 = .ok b) : Run medium b []
  | moved {b : Broker handle} {past : List Topology} (h : Run medium b past) {m : medium}
      {after : Broker handle × medium} (hmove : Move (b, m) after) :
      Run medium after.1 (b.live.topology :: past)

namespace Run

theorem moves {before after : Broker handle × medium} {past : List Topology}
    (h : Run medium before.1 past) (hmoves : Moves before after) :
    ∃ between, Run medium after.1 (between ++ past) := by
  induction hmoves with
  | refl => exact ⟨[], h⟩
  | @tail middle _ _ hlast ih =>
    obtain ⟨between, hbetween⟩ := ih
    exact ⟨middle.1.live.topology :: between, hbetween.moved hlast⟩

theorem wellFormed {b : Broker handle} {past : List Topology} (h : Run medium b past) :
    b.live.topology.WellFormed := by
  induction h with
  | opened hopen => exact openOn_wellFormed hopen
  | moved _ hmove ih => exact hmove.call.wellFormed ih

/-- What is looked up and goes when it is idle, but is there and idle, has been so since it was
taken in.  The induction goes back in time, one move after the other. -/
theorem fresh {β : Type} (look : Topology → Option β) (goes : β → Prop)
    {present : Topology → Bool} {idle : Topology → Prop}
    (hpresent : ∀ t, present t = true → ∃ record, look t = some record)
    (hkept : ∀ t t', t.NoneMissed t' → ∀ record record', look t = some record →
      look t' = some record' → record' = record)
    (hidle : ∀ t t', t.NoneMissed t' → ∀ record, look t = some record → look t' = some record →
      goes record → idle t' → idle t)
    {b : Broker handle} {past : List Topology} (h : Run medium b past) {record : β}
    (hlook : look b.live.topology = some record) (hgoes : goes record)
    (hnow : idle b.live.topology) :
    ∀ t ∈ past.takeWhile present, look t = some record ∧ idle t := by
  induction h with
  | opened =>
    intro t ht
    cases ht
  | moved hrun hmove ih =>
    have hstep := hmove.noneMissed hrun.wellFormed
    intro t ht
    rw [List.takeWhile_cons] at ht
    split at ht
    next hthere =>
      -- it was there one move earlier, so it is the same and was idle then as well
      obtain ⟨earlier, hearlier⟩ := hpresent _ hthere
      obtain rfl := hkept _ _ hstep earlier record hearlier hlook
      have hbefore := hidle _ _ hstep record hearlier hlook hgoes hnow
      rcases List.mem_cons.1 ht with rfl | ht
      · exact ⟨hearlier, hbefore⟩
      · exact ih hearlier hbefore t ht
    next => cases ht

/-- At every point of every run, with the log in any state at each move: an auto-delete exchange
that is there and has no binding is the same since it was declared or restored, and has had no
binding at any point since; and likewise an auto-delete queue that is there and has no
consumer. -/
theorem fresh_of_unreferenced {b : Broker handle} {past : List Topology}
    (h : Run medium b past) :
    (∀ x e, b.live.topology.registry.exchange? x = some e → e.definition.autoDelete = true →
      b.live.topology.Unbound x → ∀ t ∈ past.takeWhile fun t => t.registry.hasExchange x,
        t.registry.exchange? x = some e ∧ t.Unbound x) ∧
      ∀ q r, b.live.topology.registry.queue? q = some r → r.definition.autoDelete = true →
        b.live.topology.references.consumersOf q = 0 →
          ∀ t ∈ past.takeWhile fun t => t.registry.hasQueue q,
            t.registry.queue? q = some r ∧ t.references.consumersOf q = 0 := by
  constructor
  · intro x e he hauto hunbound
    exact h.fresh (fun t => t.registry.exchange? x) (fun e => e.definition.autoDelete = true)
      (fun _ => Registry.hasExchange_iff.1) (fun _ _ hstep => hstep.exchange_kept x)
      (fun _ _ hstep => hstep.unbound x) he hauto hunbound
  · intro q r hr hauto hidle
    exact h.fresh (fun t => t.registry.queue? q) (fun r => r.definition.autoDelete = true)
      (fun _ => Registry.hasQueue_iff.1) (fun _ _ hstep => hstep.queue_kept q)
      (fun _ _ hstep => hstep.unused q) hr hauto hidle

/-- An exchange that a queue could not be bound to, since the log was full. -/
theorem fresh_of_unreferenced_of_full_log :
    ∃ (b : Broker Unit) (past : List Topology) (e : Exchange), Run MemoryLog b past ∧
      b.live.topology.registry.exchange? "x" = some e ∧ e.definition.autoDelete = true ∧
      b.live.topology.Unbound "x" ∧
      (past.takeWhile fun t => t.registry.hasExchange "x").length = 2 ∧
      ∀ t ∈ past.takeWhile fun t => t.registry.hasExchange "x",
        t.registry.exchange? "x" = some e ∧ t.Unbound "x" := by
  let declare := Operation.declareExchange ⟨"x", .topic, true, true⟩ false
  let declareOther := Operation.declareQueue ⟨"q", true, false, false⟩ false
  let bind := Operation.bind ⟨"q", "x", "a.b"⟩
  let full : MemoryLog := { refusals := { append := some "full" } }
  obtain ⟨b, hb, hthere, hcount, hlength⟩ : ∃ b : Broker Unit,
      (openOn {} 1 .empty ({} : MemoryLog)).1.toOption = some b ∧
      (let declared := (b.run .admin declare ({} : MemoryLog)).2.1
       let both := (declared.run .admin declareOther ({} : MemoryLog)).2.1
       let last := (both.run .admin bind full).2.1
       last.live.topology.registry.exchange? "x" =
          some { definition := ⟨"x", .topic, true, true⟩ } ∧
        last.live.topology.references.bindingsOf "x" = 0 ∧
        ([both.live.topology, declared.live.topology, b.live.topology].takeWhile fun t =>
          t.registry.hasExchange "x").length = 2) :=
    ⟨_, (Option.some_get (by decide +kernel)).symm, by decide +kernel⟩
  have hopen : (openOn {} 1 .empty ({} : MemoryLog)).1 = .ok b := by
    cases hresult : (openOn {} 1 .empty ({} : MemoryLog)).1 with
    | error e =>
      rw [hresult] at hb
      cases hb
    | ok other =>
      rw [hresult] at hb
      injection hb with hb
      rw [hb]
  have hrun := (((opened hopen).moved (.operation .admin declare _ {})).moved
    (.operation .admin declareOther _ {})).moved (.operation .admin bind _ full)
  have hunbound := hrun.wellFormed.unbound_iff.2 hcount
  exact ⟨_, _, _, hrun, hthere, rfl, hunbound, hlength,
    hrun.fresh_of_unreferenced.1 "x" _ hthere rfl hunbound⟩

end Run

end Broker

/-- Whatever is asked of a server extends the run of its broker. -/
theorem Server.run_serve {s : Server handle} {past : List Topology}
    (h : Broker.Run medium s.broker past) (m : medium) (q : Server.Request) :
    ∃ between, Broker.Run medium (s.serve m q).2.1.broker (between ++ past) :=
  h.moves (s.serve_moves m q)

end

end BrokerTopology
