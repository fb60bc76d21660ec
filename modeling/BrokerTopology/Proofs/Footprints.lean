/-
  BrokerTopology.Proofs.Footprints — what an operation looks at and what
  it changes.

  An operation that names an exchange or a queue holds some keys: those
  of what it names, and for a removal those of what it is bound to.
  `Operation.keys?` lists them, on the topology as it stands.

  Two states agree on some keys if they have the same under each: the
  exchange, the queue but for its number, its consumers and messages,
  and every binding with one end there at least.  A frame is agreement
  on all keys but those held: nothing else is changed, and a binding only
  if both of its ends are held.  An operation is local if states that
  agree on the keys held have it come to the same answer, and agree on
  them afterwards.

  An exchange is stranded or not by its own record and its own bindings;
  so whether it goes along with something can be told by its key alone.

  Main statements:
    * `Operation.Effect.frame` — an operation changes what it holds.
    * `Operation.decide_alike` — and goes by what it holds.
    * `Operation.keys?_congr` — it holds the same keys as long as those are
      left alone.
-/
import BrokerTopology.Proofs.OperationEffects
import BrokerTopology.Proofs.Restoration

namespace BrokerTopology

/-! ## §1. Keys -/

/-- The keys that an operation holds: of an exchange or a queue that is declared, of both ends of
a binding, of a queue that is joined or purged; of a queue that is deleted or left, with every
exchange that it is bound to; and of an exchange that is deleted, with every queue bound to it.
An operation that draws a name, or is on no entity alone, has none. -/
def Operation.keys? (t : Topology) : Operation → Option KeySet
  | declareExchange d _ => some {.exchange d.name}
  | declareQueue d _ => if d.name = "" then none else some {.queue d.name}
  | bind b | unbind b => some (Cascade.keysOfBinding b)
  | deleteQueue name .. | detachConsumer name => some (Cascade.keysOfQueue t name)
  | deleteExchange name _ => some (Cascade.keysOfExchange t name)
  | purge name | attachConsumer name => some {.queue name}
  | publish _ | fetch _ | route .. => none

theorem Cascade.queue_mem_keysOfBinding (b : Binding) :
    EntityKey.queue b.queue ∈ keysOfBinding b := by
  simp [keysOfBinding, Std.ExtTreeSet.mem_ofList]

/-! ## §2. Agreement -/

namespace LiveState

/-- Two states have the same under some keys. -/
structure Agree (P : EntityKey → Prop) (s s' : LiveState) : Prop where
  exchange : ∀ x, P (.exchange x) →
    s.topology.registry.exchange? x = s'.topology.registry.exchange? x
  queue : ∀ q, P (.queue q) →
    (s.topology.registry.queue? q).map Queue.unnumbered =
      (s'.topology.registry.queue? q).map Queue.unnumbered
  consumers : ∀ q, P (.queue q) →
    s.topology.references.consumersOf q = s'.topology.references.consumersOf q
  pending : ∀ q, P (.queue q) → s.mailboxes.pending q = s'.mailboxes.pending q
  binding : ∀ b, P (.exchange b.exchange) ∨ P (.queue b.queue) →
    (b ∈ s.topology.bindings ↔ b ∈ s'.topology.bindings)

namespace Agree

variable {P Q : EntityKey → Prop} {s s' s'' : LiveState}

theorem refl (P : EntityKey → Prop) (s : LiveState) : s.Agree P s :=
  ⟨fun _ _ => rfl, fun _ _ => rfl, fun _ _ => rfl, fun _ _ => rfl, fun _ _ => Iff.rfl⟩

theorem symm (h : s.Agree P s') : s'.Agree P s :=
  ⟨fun x hx => (h.exchange x hx).symm, fun q hq => (h.queue q hq).symm,
    fun q hq => (h.consumers q hq).symm, fun q hq => (h.pending q hq).symm,
    fun b hb => (h.binding b hb).symm⟩

theorem trans (h : s.Agree P s') (h' : s'.Agree P s'') : s.Agree P s'' :=
  ⟨fun x hx => (h.exchange x hx).trans (h'.exchange x hx),
    fun q hq => (h.queue q hq).trans (h'.queue q hq),
    fun q hq => (h.consumers q hq).trans (h'.consumers q hq),
    fun q hq => (h.pending q hq).trans (h'.pending q hq),
    fun b hb => (h.binding b hb).trans (h'.binding b hb)⟩

theorem mono (h : s.Agree P s') (hkeys : ∀ key, Q key → P key) : s.Agree Q s' :=
  ⟨fun x hx => h.exchange x (hkeys _ hx), fun q hq => h.queue q (hkeys _ hq),
    fun q hq => h.consumers q (hkeys _ hq), fun q hq => h.pending q (hkeys _ hq),
    fun b hb => h.binding b (hb.imp (hkeys _) (hkeys _))⟩

/-- States that agree on some keys and on others agree on both. -/
theorem or (h : s.Agree P s') (h' : s.Agree Q s') : s.Agree (fun key => P key ∨ Q key) s' := by
  refine ⟨fun x hx => ?_, fun q hq => ?_, fun q hq => ?_, fun q hq => ?_, fun b hb => ?_⟩
  · exact hx.elim (h.exchange x) (h'.exchange x)
  · exact hq.elim (h.queue q) (h'.queue q)
  · exact hq.elim (h.consumers q) (h'.consumers q)
  · exact hq.elim (h.pending q) (h'.pending q)
  · rcases hb with (hx | hx) | (hq | hq)
    · exact h.binding b (Or.inl hx)
    · exact h'.binding b (Or.inl hx)
    · exact h.binding b (Or.inr hq)
    · exact h'.binding b (Or.inr hq)

/-- What an exchange that both have is bound to is the same. -/
theorem binding_iff (h : s.Agree P s') {x : String} (hx : P (.exchange x)) (b : Binding) :
    b ∈ s.topology.bindings ∧ b.exchange = x ↔ b ∈ s'.topology.bindings ∧ b.exchange = x := by
  refine and_congr_left ?_
  rintro rfl
  exact h.binding b (Or.inl hx)

/-- So whether it is stranded is told by its key. -/
theorem strands (h : s.Agree P s') (hwf : s.topology.WellFormed) (hwf' : s'.topology.WellFormed)
    {x : String} (hx : P (.exchange x)) (r : Removal) :
    s.topology.strands r x = s'.topology.strands r x := by
  have hbindings := h.binding_iff hx
  rw [Bool.eq_iff_iff, hwf.strands_iff, hwf'.strands_iff, Topology.autoDeletes,
    Topology.autoDeletes, h.exchange x hx]
  refine and_congr_right fun _ => and_congr ?_ ?_
  · simp only [← and_assoc, hbindings]
  · simp only [← and_imp, hbindings]

/-- An exchange has as many bindings in both. -/
theorem bindingsOf (h : s.Agree P s') (hwf : s.topology.WellFormed)
    (hwf' : s'.topology.WellFormed) {x : String} (hx : P (.exchange x)) :
    s.topology.references.bindingsOf x = s'.topology.references.bindingsOf x := by
  rw [hwf.bindings_counted, hwf'.bindings_counted]
  -- the same bindings on either side, and none of them twice
  refine List.Perm.length_eq ((List.perm_ext_iff_of_nodup
    (BindingTable.nodup_ofExchange _ x) (BindingTable.nodup_ofExchange _ x)).2 fun b => ?_)
  rw [hwf.table.mem_ofExchange, hwf'.table.mem_ofExchange]
  exact h.binding_iff hx b

/-- After the same removal states agree where they did before. -/
theorem without (h : s.Agree P s') {t t' : LiveState} {r : Removal} (ht : t.Without s r)
    (ht' : t'.Without s' r) (hwf : s.topology.WellFormed) (hwf' : s'.topology.WellFormed) :
    t.Agree P t' := by
  refine ⟨fun x hx => ?_, fun q hq => ?_, fun q hq => ?_, fun q hq => ?_, fun b hb => ?_⟩
  · rw [ht.topology.exchanges, ht'.topology.exchanges, h.strands hwf hwf' hx, h.exchange x hx]
  · rw [ht.topology.queues, ht'.topology.queues]
    split
    next => rfl
    next => exact h.queue q hq
  · rw [ht.topology.consumers, ht'.topology.consumers, h.consumers q hq]
  · rw [ht.pending, ht'.pending, h.pending q hq]
  · rw [ht.topology.bindings, ht'.topology.bindings, h.binding b hb]

end Agree

end LiveState

/-! ## §3. Frames -/

/-- A removal stays within some keys: its own, and those of the bindings that it takes along. -/
structure Removal.Within (r : Removal) (t : Topology) (held : KeySet) : Prop where
  queue : ∀ q, r = .queue q → EntityKey.queue q ∈ held
  exchange : ∀ x, r = .exchange x → EntityKey.exchange x ∈ held
  covers : ∀ b ∈ t.bindings, r.covers b = true →
    EntityKey.exchange b.exchange ∈ held ∧ EntityKey.queue b.queue ∈ held

namespace Operation

open Cascade LiveState

variable {matcher : Matcher} {conn : ConnectionId} {s s' : LiveState} {op : Operation}
  {held : KeySet}

/-- A removal stays within the keys of its operation. -/
theorem within_of_removal? {t : Topology} (h : t.WellFormed) {r : Removal}
    (hr : op.removal? t = some r) (hheld : op.keys? t = some held) : r.Within t held := by
  have hqueue : ∀ name, Removal.Within (.queue name) t (keysOfQueue t name) := by
    intro name
    have hself : EntityKey.queue name ∈ keysOfQueue t name := mem_keysOfQueue.2 (Or.inl rfl)
    refine ⟨fun q hq => ?_, nofun, fun b hb hcovers => ?_⟩
    · injection hq with hq
      exact hq ▸ hself
    · obtain rfl := beq_iff_eq.1 hcovers
      exact ⟨mem_keysOfQueue.2 (Or.inr ⟨b, h.table.mem_ofQueue.2 ⟨hb, rfl⟩, rfl⟩), hself⟩
  cases op with
  | unbind b =>
    obtain rfl := Option.some.inj hr
    obtain rfl := Option.some.inj hheld
    refine ⟨nofun, nofun, fun c _ hcovers => ?_⟩
    obtain rfl := beq_iff_eq.1 hcovers
    exact ⟨mem_keysOfBinding c, queue_mem_keysOfBinding c⟩
  | deleteQueue name =>
    obtain rfl := Option.some.inj hr
    obtain rfl := Option.some.inj hheld
    exact hqueue name
  | detachConsumer name =>
    obtain ⟨-, -, rfl⟩ := last_of_removal? hr
    obtain rfl := Option.some.inj hheld
    exact hqueue name
  | deleteExchange name =>
    obtain rfl := Option.some.inj hr
    obtain rfl := Option.some.inj hheld
    have hself : EntityKey.exchange name ∈ keysOfExchange t name :=
      mem_keysOfExchange.2 (Or.inl rfl)
    refine ⟨nofun, fun x hx => ?_, fun b hb hcovers => ?_⟩
    · injection hx with hx
      exact hx ▸ hself
    · obtain rfl := beq_iff_eq.1 hcovers
      exact ⟨hself, mem_keysOfExchange.2 (Or.inr ⟨b, h.table.mem_ofExchange.2 ⟨hb, rfl⟩, rfl⟩)⟩
  | _ => cases hr

end Operation

namespace LiveState

/-- What is removed within some keys is gone from under those alone. -/
theorem Without.frame {s s' : LiveState} {r : Removal} {held : KeySet} (hs' : s'.Without s r)
    (hwf : s.topology.WellFormed) (hwithin : r.Within s.topology held) :
    s.Agree (· ∉ held) s' := by
  refine ⟨fun x hx => ?_, fun q hq => ?_, fun q hq => ?_, fun q hq => ?_, fun b hb => ?_⟩
  · rw [hs'.topology.exchanges, if_neg]
    rintro (hr | hstranded)
    · exact hx (hwithin.exchange x hr)
    · -- an exchange that is stranded had a binding that was covered, so its key is held
      obtain ⟨-, ⟨b, hb, rfl, hcovers⟩, -⟩ := hwf.strands_iff.1 hstranded
      exact hx (hwithin.covers b hb hcovers).1
  · rw [hs'.topology.queues, if_neg fun hr => hq (hwithin.queue q hr)]
  · rw [hs'.topology.consumers, if_neg fun hr => hq (hwithin.queue q hr)]
  · rw [hs'.pending, if_neg fun hr => hq (hwithin.queue q hr)]
  · rw [hs'.topology.bindings, iff_self_and]
    intro hmem
    rw [Bool.eq_false_iff]
    intro hcovers
    obtain ⟨hx, hq⟩ := hwithin.covers b hmem hcovers
    exact hb.elim (· hx) (· hq)

end LiveState

namespace Operation

open Cascade LiveState

variable {matcher : Matcher} {conn : ConnectionId} {s s' : LiveState} {op : Operation}
  {held : KeySet}

/-- What is not held is not changed, and no name is drawn. -/
theorem Effect.frame (heffect : Effect matcher conn s op s') (hwf : s.topology.WellFormed)
    (hheld : op.keys? s.topology = some held) :
    s.Agree (· ∉ held) s' ∧ s'.topology.registry.names = s.topology.registry.names := by
  cases heffect with
  | same => exact ⟨.refl _ _, rfl⟩
  | @names d _ _ _ hname =>
    rw [keys?, if_pos hname] at hheld
    cases hheld
  | @exchange d _ hnew =>
    obtain rfl := Option.some.inj hheld
    refine ⟨⟨fun x hx => ?_, fun _ _ => rfl, fun _ _ => rfl, fun _ _ => rfl, fun _ _ => Iff.rfl⟩,
      rfl⟩
    have hother : d.name ≠ x := by
      rintro rfl
      simp at hx
    exact ((Topology.exchange?_addExchange s.topology d x).trans (if_neg hother)).symm
  | @queue d d' _ g _ hnamed hnew =>
    obtain ⟨hne, hheld⟩ := Option.ite_none_left_eq_some.1 hheld
    obtain rfl := Option.some.inj hheld
    obtain ⟨rfl, rfl⟩ := hnamed hne
    refine ⟨⟨fun _ _ => rfl, fun q hq => ?_, fun _ _ => rfl, fun _ _ => rfl, fun _ _ => Iff.rfl⟩,
      rfl⟩
    have hother : d'.name ≠ q := by
      rintro rfl
      simp at hq
    have hlook := Topology.queue?_addQueue (s.topology.withGenerator s.topology.registry.names) d'
      (ownerOf conn d') q
    exact congrArg _ (hlook.trans (if_neg hother)).symm
  | @binding b =>
    obtain rfl := Option.some.inj hheld
    obtain ⟨hregistry, hconsumers⟩ := Topology.addBinding_rest s.topology b
    refine ⟨⟨fun x _ => congrArg (·.exchange? x) hregistry.symm,
      fun q _ => congrArg (fun r => (r.queue? q).map Queue.unnumbered) hregistry.symm,
      fun q _ => congrArg (NameCounts.countOf · q) hconsumers.symm, fun _ _ => rfl, ?_⟩,
      congrArg Registry.names hregistry⟩
    intro c hc
    show _ ↔ c ∈ (s.topology.addBinding b).bindings
    rw [Topology.mem_addBinding, or_iff_right]
    -- both ends of the new binding are held
    rintro rfl
    exact hc.elim (· (mem_keysOfBinding c)) (· (queue_mem_keysOfBinding c))
  | removed hr hs' =>
    exact ⟨hs'.frame hwf (within_of_removal? hwf hr hheld), hs'.topology.names⟩
  | published => cases hheld
  | fetched => cases hheld
  | @purged name =>
    obtain rfl := Option.some.inj hheld
    refine ⟨⟨fun _ _ => rfl, fun _ _ => rfl, fun _ _ => rfl, fun q hq => ?_, fun _ _ => Iff.rfl⟩,
      rfl⟩
    have hother : name ≠ q := by
      rintro rfl
      simp at hq
    exact ((Mailboxes.pending_clear s.mailboxes name q).trans (if_neg hother)).symm
  | @joined name =>
    obtain rfl := Option.some.inj hheld
    refine ⟨⟨fun _ _ => rfl, fun _ _ => rfl, fun q hq => ?_, fun _ _ => rfl, fun _ _ => Iff.rfl⟩,
      rfl⟩
    have hother : name ≠ q := by
      rintro rfl
      simp at hq
    exact ((ReferenceCounts.consumersOf_consumerAdded s.topology.references name q).trans
      (if_neg hother)).symm
  | nobodyLeft => exact ⟨.refl _ _, rfl⟩
  | @left name _ _ hremoved _ =>
    obtain rfl := Option.some.inj hheld
    refine ⟨⟨fun _ _ => rfl, fun _ _ => rfl, fun q hq => ?_, fun _ _ => rfl, fun _ _ => Iff.rfl⟩,
      rfl⟩
    have hother : name ≠ q := by
      rintro rfl
      exact hq (mem_keysOfQueue.2 (Or.inl rfl))
    obtain ⟨-, hcount, -⟩ := ReferenceCounts.consumersOf_consumerRemoved? hremoved q
    exact (hcount.trans (if_neg hother)).symm

/-- The same keys are held in a state that agrees on them. -/
theorem keys?_congr (hheld : op.keys? s.topology = some held) (h : s.Agree (· ∈ held) s')
    (hwf : s.topology.WellFormed) (hwf' : s'.topology.WellFormed) :
    op.keys? s'.topology = some held := by
  have hqueue : ∀ name, keysOfQueue s.topology name = held →
      keysOfQueue s'.topology name = held := by
    rintro name rfl
    refine Std.ExtTreeSet.ext_mem fun key => ?_
    simp only [mem_keysOfQueue, hwf.table.mem_ofQueue, hwf'.table.mem_ofQueue]
    refine or_congr_right (exists_congr fun b => and_congr_left fun _ => and_congr_left ?_)
    -- the queue's own key is among those held, and tells all of its bindings
    rintro rfl
    exact (h.binding b (Or.inr (mem_keysOfQueue.2 (Or.inl rfl)))).symm
  have hexchange : ∀ name, keysOfExchange s.topology name = held →
      keysOfExchange s'.topology name = held := by
    rintro name rfl
    refine Std.ExtTreeSet.ext_mem fun key => ?_
    simp only [mem_keysOfExchange, hwf.table.mem_ofExchange, hwf'.table.mem_ofExchange]
    refine or_congr_right (exists_congr fun b => and_congr_left fun _ => and_congr_left ?_)
    rintro rfl
    exact (h.binding b (Or.inl (mem_keysOfExchange.2 (Or.inl rfl)))).symm
  cases op with
  | deleteQueue name => exact congrArg some (hqueue name (Option.some.inj hheld))
  | detachConsumer name => exact congrArg some (hqueue name (Option.some.inj hheld))
  | deleteExchange name => exact congrArg some (hexchange name (Option.some.inj hheld))
  | _ => exact hheld

end Operation

/-! ## §4. Locality -/

/-- What is in a record apart from its number. -/
theorem Queue.definition_congr {q q' : Queue} (h : q.unnumbered = q'.unnumbered) :
    q.definition = q'.definition := by
  have hsame : q.unnumbered.definition = q'.unnumbered.definition := by rw [h]
  exact hsame

theorem Queue.accessibleBy_congr {q q' : Queue} (h : q.unnumbered = q'.unnumbered)
    (conn : ConnectionId) : q.accessibleBy conn = q'.accessibleBy conn := by
  have hsame : q.unnumbered.accessibleBy conn = q'.unnumbered.accessibleBy conn := by rw [h]
  exact hsame

namespace LiveState

/-- Two decisions, each on a state of its own, are refused alike; or they come to the same answer,
to states that agree on some keys, and to as many records taken in. -/
inductive Alike {α : Type} (P : EntityKey → Prop) (s s' : LiveState) :
    Except Refusal (Change α) → Except Refusal (Change α) → Prop
  | refused (e : Refusal) : Alike P s s' (.error e) (.error e)
  | changed {c c' : Change α} (answer : c.answer = c'.answer) (live : c.live.Agree P c'.live)
      (incarnations : c.live.topology.registry.lastIncarnation +
          s'.topology.registry.lastIncarnation =
        c'.live.topology.registry.lastIncarnation + s.topology.registry.lastIncarnation) :
      Alike P s s' (.ok c) (.ok c')

namespace Alike

variable {α β : Type} {P : EntityKey → Prop} {s s' : LiveState}

theorem keep (h : s.Agree P s') {answer answer' : α} (hanswer : answer = answer') :
    Alike P s s' (.ok (s.keep answer)) (.ok (s'.keep answer')) :=
  .changed hanswer h (Nat.add_comm _ _)

theorem map {d : Decision α} (h : Alike P s s' (d s) (d s')) (f : α → β) :
    Alike P s s' (d.map f s) (d.map f s') := by
  unfold Decision.map
  generalize d s = result, d s' = result' at h
  cases h with
  | refused e => exact .refused e
  | changed answer live incarnations => exact .changed (congrArg f answer) live incarnations

/-- What is checked on neither state. -/
theorem bind (x : Except Refusal β) {f f' : β → Except Refusal (Change α)}
    (hf : ∀ b, x = .ok b → Alike P s s' (f b) (f' b)) : Alike P s s' (x >>= f) (x >>= f') := by
  cases x with
  | error e => exact .refused e
  | ok b => exact hf b rfl

/-- A queue is found by either state, or by neither, and may be used in both, or in neither. -/
theorem queueFor (h : s.Agree P s') {name : String} (hname : P (.queue name)) (conn : ConnectionId)
    {f f' : Queue → Except Refusal (Change α)}
    (hf : ∀ q q', s.topology.registry.queue? name = some q →
      s'.topology.registry.queue? name = some q' → q.unnumbered = q'.unnumbered →
        Alike P s s' (f q) (f' q')) :
    Alike P s s' (s.queueFor conn name >>= f) (s'.queueFor conn name >>= f') := by
  have hsame := h.queue name hname
  unfold LiveState.queueFor
  cases hq : s.topology.registry.queue? name with
  | none =>
    rw [hq, Option.map_none, eq_comm, Option.map_eq_none_iff] at hsame
    rw [hsame]
    exact .refused _
  | some q =>
    rw [hq, Option.map_some, eq_comm, Option.map_eq_some_iff] at hsame
    obtain ⟨q', hq', hrecord⟩ := hsame
    rw [hq']
    simp only [Queue.accessibleBy_congr hrecord]
    split
    next => exact hf q q' hq hq' hrecord.symm
    next => exact .refused _

theorem exchangeOf (h : s.Agree P s') {name : String} (hname : P (.exchange name))
    {f f' : Exchange → Except Refusal (Change α)}
    (hf : ∀ x, s.topology.registry.exchange? name = some x → Alike P s s' (f x) (f' x)) :
    Alike P s s' (s.exchangeOf name >>= f) (s'.exchangeOf name >>= f') := by
  unfold LiveState.exchangeOf
  rw [← h.exchange name hname]
  cases hx : s.topology.registry.exchange? name with
  | none => exact .refused _
  | some x => exact hf x hx

end Alike

variable {P : EntityKey → Prop} {s s' : LiveState}

theorem declareExchange_alike (h : s.Agree P s') {d : ExchangeDef} (hd : P (.exchange d.name))
    (passive : Bool) :
    Alike P s s' (declareExchange d passive s) (declareExchange d passive s') := by
  have hadd : (s.withTopology (s.topology.addExchange d)).Agree P
      (s'.withTopology (s'.topology.addExchange d)) := by
    refine ⟨fun x hx => ?_, h.queue, h.consumers, h.pending, h.binding⟩
    have hlook := Topology.exchange?_addExchange s.topology d x
    have hlook' := Topology.exchange?_addExchange s'.topology d x
    rw [← h.exchange x hx] at hlook'
    exact hlook.trans hlook'.symm
  unfold declareExchange
  refine .bind _ fun _ _ => ?_
  rw [← h.exchange _ hd]
  split
  next =>
    split
    next => exact .keep h rfl
    next => exact .refused _
  next =>
    cases s.topology.registry.exchange? d.name with
    | none =>
      simp only
      split
      next => exact .refused _
      next =>
        split
        next => exact .refused _
        next => exact .changed rfl hadd (Nat.add_comm _ _)
    | some x =>
      simp only
      split
      next => exact .keep h rfl
      next =>
        cases x.definition.mismatch? d with
        | none => exact .keep h rfl
        | some mismatch => exact .refused _

theorem declareNamedQueue_alike (h : s.Agree P s') {d : QueueDef} (hd : P (.queue d.name))
    (conn : ConnectionId) (passive : Bool) :
    Alike P s s' (declareNamedQueue conn d passive s) (declareNamedQueue conn d passive s') := by
  have hdeclared : s.declared d.name = s'.declared d.name := by
    rw [declared, declared, Mailboxes.count, Mailboxes.count, h.pending _ hd, h.consumers _ hd]
  have hadd : (s.withTopology (s.topology.addQueue d (ownerOf conn d))).Agree P
      (s'.withTopology (s'.topology.addQueue d (ownerOf conn d))) := by
    refine ⟨h.exchange, fun q hq => ?_, h.consumers, h.pending, h.binding⟩
    show ((s.topology.addQueue d (ownerOf conn d)).registry.queue? q).map Queue.unnumbered =
      ((s'.topology.addQueue d (ownerOf conn d)).registry.queue? q).map Queue.unnumbered
    rw [Topology.queue?_addQueue, Topology.queue?_addQueue]
    split
    next => rfl
    next => exact h.queue q hq
  have hsame := h.queue _ hd
  -- the queue is there in both or in neither; where it is taken in, each has a number of its own
  unfold declareNamedQueue
  cases hq : s.topology.registry.queue? d.name with
  | none =>
    rw [hq, Option.map_none, eq_comm, Option.map_eq_none_iff] at hsame
    rw [hsame]
    simp only
    split
    next => exact .refused _
    next =>
      refine .changed hdeclared hadd ?_
      show s.topology.registry.lastIncarnation + 1 + s'.topology.registry.lastIncarnation =
        s'.topology.registry.lastIncarnation + 1 + s.topology.registry.lastIncarnation
      omega
  | some q =>
    rw [hq, Option.map_some, eq_comm, Option.map_eq_some_iff] at hsame
    obtain ⟨q', hq', hrecord⟩ := hsame
    rw [hq']
    simp only [Queue.accessibleBy_congr hrecord, Queue.definition_congr hrecord]
    split
    next => exact .refused _
    next =>
      split
      next => exact .keep h hdeclared
      next =>
        cases q.definition.mismatch? d with
        | none => exact .keep h hdeclared
        | some mismatch => exact .refused _

theorem declareQueue_alike (h : s.Agree P s') {d : QueueDef} (hname : d.name ≠ "")
    (hd : P (.queue d.name)) (conn : ConnectionId) (passive : Bool) :
    Alike P s s' (declareQueue conn d passive s) (declareQueue conn d passive s') := by
  unfold declareQueue
  rw [if_neg hname, if_neg hname]
  refine .bind _ fun _ _ => ?_
  split
  next => exact .refused _
  next => exact declareNamedQueue_alike h hd conn passive

theorem bind_alike (h : s.Agree P s') {b : Binding} (hx : P (.exchange b.exchange))
    (hq : P (.queue b.queue)) (conn : ConnectionId) :
    Alike P s s' (bind conn b s) (bind conn b s') := by
  unfold LiveState.bind
  refine .bind _ fun _ _ => .queueFor h hq conn fun _ _ _ _ _ => .exchangeOf h hx fun _ _ => ?_
  have hcontains : s.topology.bindings.contains b = s'.topology.bindings.contains b :=
    Bool.eq_iff_iff.2 (h.binding b (Or.inl hx))
  obtain ⟨hregistry, hconsumers⟩ := Topology.addBinding_rest s.topology b
  obtain ⟨hregistry', hconsumers'⟩ := Topology.addBinding_rest s'.topology b
  rw [← hcontains]
  split
  next => exact .keep h rfl
  next =>
    refine .changed rfl
      ⟨fun x hx => ?_, fun q hq => ?_, fun q hq => ?_, h.pending, fun c hc => ?_⟩ ?_
    · show (s.topology.addBinding b).registry.exchange? x =
        (s'.topology.addBinding b).registry.exchange? x
      rw [hregistry, hregistry']
      exact h.exchange x hx
    · show ((s.topology.addBinding b).registry.queue? q).map Queue.unnumbered =
        ((s'.topology.addBinding b).registry.queue? q).map Queue.unnumbered
      rw [hregistry, hregistry']
      exact h.queue q hq
    · show NameCounts.countOf (s.topology.addBinding b).references.consumers q =
        NameCounts.countOf (s'.topology.addBinding b).references.consumers q
      rw [hconsumers, hconsumers']
      exact h.consumers q hq
    · show c ∈ (s.topology.addBinding b).bindings ↔ c ∈ (s'.topology.addBinding b).bindings
      rw [Topology.mem_addBinding, Topology.mem_addBinding, h.binding c hc]
    · show (s.topology.addBinding b).registry.lastIncarnation + _ =
        (s'.topology.addBinding b).registry.lastIncarnation + _
      rw [hregistry, hregistry']
      exact Nat.add_comm _ _

theorem purge_alike (h : s.Agree P s') {name : String} (hname : P (.queue name))
    (conn : ConnectionId) : Alike P s s' (purge conn name s) (purge conn name s') := by
  refine .queueFor h hname conn fun _ _ _ _ _ => ?_
  refine .changed (congrArg List.length (h.pending name hname))
    ⟨h.exchange, h.queue, h.consumers, fun q hq => ?_, h.binding⟩ (Nat.add_comm _ _)
  show (s.mailboxes.clear name).pending q = (s'.mailboxes.clear name).pending q
  rw [Mailboxes.pending_clear, Mailboxes.pending_clear, h.pending q hq]

/-- The number that a consumer joins under is kept to itself. -/
theorem attachConsumer_alike (h : s.Agree P s') {name : String} (hname : P (.queue name))
    (conn : ConnectionId) :
    Alike P s s' ((attachConsumer conn name).map Prod.fst s)
      ((attachConsumer conn name).map Prod.fst s') := by
  have hattach : ∀ t : LiveState, (attachConsumer conn name).map Prod.fst t =
      t.queueFor conn name >>= fun _ =>
        .ok
          { answer := (t.topology.references.consumerAdded name).consumersOf name
            live := t.withTopology
              { t.topology with references := t.topology.references.consumerAdded name } } := by
    intro t
    unfold Decision.map attachConsumer
    cases t.queueFor conn name with
    | error e => rfl
    | ok q => rfl
  rw [hattach, hattach]
  have hcounts : ∀ q, P (.queue q) →
      (s.topology.references.consumerAdded name).consumersOf q =
        (s'.topology.references.consumerAdded name).consumersOf q := by
    intro q hq
    rw [ReferenceCounts.consumersOf_consumerAdded, ReferenceCounts.consumersOf_consumerAdded,
      h.consumers name hname, h.consumers q hq]
  refine .queueFor h hname conn fun _ _ _ _ _ => ?_
  exact .changed (hcounts name hname) ⟨h.exchange, h.queue, hcounts, h.pending, h.binding⟩
    (Nat.add_comm _ _)

/-- The same removal, carried out in both. -/
theorem Alike.removed {α : Type} (h : s.Agree P s') (hwf : s.topology.WellFormed)
    (hwf' : s'.topology.WellFormed) {r : Removal} {c c' : Change α} (hc : c.live.Without s r)
    (hc' : c'.live.Without s' r) (hanswer : c.answer = c'.answer) :
    Alike P s s' (.ok c) (.ok c') := by
  refine .changed hanswer (h.without hc hc' hwf hwf') ?_
  rw [hc.topology.lastIncarnation, hc'.topology.lastIncarnation]
  exact Nat.add_comm _ _

theorem unbind_alike (h : s.Agree P s') (hwf : s.topology.WellFormed)
    (hwf' : s'.topology.WellFormed) {b : Binding} (hx : P (.exchange b.exchange))
    (hq : P (.queue b.queue)) (conn : ConnectionId) :
    Alike P s s' (unbind conn b s) (unbind conn b s') := by
  have hcontains : s.topology.bindings.contains b = s'.topology.bindings.contains b :=
    Bool.eq_iff_iff.2 (h.binding b (Or.inl hx))
  unfold unbind
  simp only
  split
  next => exact .refused _
  next =>
    refine .queueFor h hq conn fun _ _ _ _ _ => .exchangeOf h hx fun _ _ => ?_
    rw [← hcontains]
    split
    next hb =>
      have hb' := hcontains.symm.trans hb
      exact .removed h hwf hwf' (carryOut_without hwf (Cascade.plans_removingBinding hwf hb) hb ())
        (carryOut_without hwf' (Cascade.plans_removingBinding hwf' hb') hb' ()) rfl
    next => exact .refused _

theorem deleteQueue_alike (h : s.Agree P s') (hwf : s.topology.WellFormed)
    (hwf' : s'.topology.WellFormed) {name : String} (hname : P (.queue name))
    (conn : ConnectionId) (ifUnused ifEmpty : Bool) :
    Alike P s s' (deleteQueue conn name ifUnused ifEmpty s)
      (deleteQueue conn name ifUnused ifEmpty s') := by
  have hmessages : s.mailboxes.count name = s'.mailboxes.count name :=
    congrArg List.length (h.pending name hname)
  unfold deleteQueue
  refine .queueFor h hname conn fun q q' hq hq' _ => ?_
  simp only [← h.consumers name hname, ← hmessages]
  split
  next => exact .refused _
  next =>
    split
    next => exact .refused _
    next =>
      have hq := Registry.hasQueue_iff.2 ⟨q, hq⟩
      have hq' := Registry.hasQueue_iff.2 ⟨q', hq'⟩
      exact .removed h hwf hwf' (carryOut_without hwf (Cascade.plans_removingQueue hwf hq) hq _)
        (carryOut_without hwf' (Cascade.plans_removingQueue hwf' hq') hq' _) rfl

theorem deleteExchange_alike (h : s.Agree P s') (hwf : s.topology.WellFormed)
    (hwf' : s'.topology.WellFormed) {name : String} (hname : P (.exchange name))
    (ifUnused : Bool) :
    Alike P s s' (deleteExchange name ifUnused s) (deleteExchange name ifUnused s') := by
  unfold deleteExchange
  refine .exchangeOf h hname fun x hx => ?_
  simp only [← h.bindingsOf hwf hwf' hname]
  split
  next => exact .refused _
  next hbuiltin =>
    split
    next => exact .refused _
    next =>
      have hremovable : s.topology.Removable (.exchange name) :=
        ⟨x, hx, Bool.eq_false_iff.2 hbuiltin⟩
      have hremovable' : s'.topology.Removable (.exchange name) :=
        ⟨x, (h.exchange name hname).symm.trans hx, Bool.eq_false_iff.2 hbuiltin⟩
      exact .removed h hwf hwf'
        (carryOut_without hwf (Cascade.plans_removingExchange hwf hremovable) hremovable ())
        (carryOut_without hwf' (Cascade.plans_removingExchange hwf' hremovable') hremovable' ())
        rfl

/-- A consumer leaves whatever queue has the name. -/
theorem detachConsumer_of_some {q : Queue} {name : String}
    (hq : s.topology.registry.queue? name = some q) {remaining : Nat}
    (hcount : s.topology.references.consumersOf name = remaining + 1) :
    ∃ change, detachConsumer name none s = .ok change ∧ change.answer = remaining := by
  unfold detachConsumer
  rw [hq]
  simp only [Option.any_none, Bool.false_eq_true, ↓reduceIte, hcount]
  exact ⟨_, rfl, rfl⟩

/-- What is left after a consumer has left in both: it is the last of its queue in both, or in
neither. -/
theorem Agree.leave {matcher : Matcher} {conn : ConnectionId} {name : String} {t t' : LiveState}
    (h : s.Agree P s') (hwf : s.topology.WellFormed) (hwf' : s'.topology.WellFormed)
    (ht : Operation.Effect matcher conn s (.detachConsumer name) t)
    (ht' : Operation.Effect matcher conn s' (.detachConsumer name) t') {remaining : Nat}
    (hcount : s.topology.references.consumersOf name = remaining + 1)
    (hcount' : s'.topology.references.consumersOf name = remaining + 1)
    (hremoval : (Operation.detachConsumer name).removal? s.topology =
      (Operation.detachConsumer name).removal? s'.topology) :
    t.Agree P t' ∧ t.topology.registry.lastIncarnation + s'.topology.registry.lastIncarnation =
      t'.topology.registry.lastIncarnation + s.topology.registry.lastIncarnation := by
  -- the same outcome on both sides: whether the queue goes was told by what both agree on
  cases ht with
  | same _ hcounts => cases hcounts
  | nobodyLeft hnone =>
    rw [hcount] at hnone
    cases hnone
  | removed hr hwithout =>
    cases ht' with
    | same _ hcounts => cases hcounts
    | nobodyLeft hnone =>
      rw [hcount'] at hnone
      cases hnone
    | removed hr' hwithout' =>
      obtain rfl := Option.some.inj (hr.symm.trans (hremoval.trans hr'))
      refine ⟨h.without hwithout hwithout' hwf hwf', ?_⟩
      rw [hwithout.topology.lastIncarnation, hwithout'.topology.lastIncarnation]
      exact Nat.add_comm _ _
    | left _ hstays =>
      rw [← hremoval, hr] at hstays
      cases hstays
  | left hleft hstays =>
    cases ht' with
    | same _ hcounts => cases hcounts
    | nobodyLeft hnone =>
      rw [hcount'] at hnone
      cases hnone
    | removed hr' hwithout' =>
      rw [hremoval, hr'] at hstays
      cases hstays
    | left hleft' _ =>
      refine ⟨⟨h.exchange, h.queue, fun q hq => ?_, h.pending, h.binding⟩, Nat.add_comm _ _⟩
      obtain ⟨hn, hothers, -⟩ := ReferenceCounts.consumersOf_consumerRemoved? hleft q
      obtain ⟨hn', hothers', -⟩ := ReferenceCounts.consumersOf_consumerRemoved? hleft' q
      refine hothers.trans (Eq.trans ?_ hothers'.symm)
      split
      next => omega
      next => exact h.consumers q hq

theorem detachConsumer_alike (h : s.Agree P s') (hwf : s.topology.WellFormed)
    (hwf' : s'.topology.WellFormed) {name : String} (hname : P (.queue name)) :
    Alike P s s' (detachConsumer name none s) (detachConsumer name none s') := by
  have hsame := h.queue name hname
  have hconsumers := h.consumers name hname
  cases hq : s.topology.registry.queue? name with
  | none =>
    rw [hq, Option.map_none, eq_comm, Option.map_eq_none_iff] at hsame
    unfold detachConsumer
    rw [hq, hsame]
    exact .refused _
  | some q =>
    rw [hq, Option.map_some, eq_comm, Option.map_eq_some_iff] at hsame
    obtain ⟨q', hq', hrecord⟩ := hsame
    cases hcount : s.topology.references.consumersOf name with
    | zero =>
      rw [detachConsumer_of_none hq hcount, detachConsumer_of_none hq' (hconsumers ▸ hcount)]
      exact .keep h rfl
    | succ remaining =>
      have hcount' := hconsumers.symm.trans hcount
      obtain ⟨change, hchange, hanswer⟩ := detachConsumer_of_some hq hcount
      obtain ⟨change', hchange', hanswer'⟩ := detachConsumer_of_some hq' hcount'
      have hremoval : (Operation.detachConsumer name).removal? s.topology =
          (Operation.detachConsumer name).removal? s'.topology := by
        simp only [Operation.removal?, hcount, hcount', hq, hq', Option.any_some,
          Queue.definition_congr hrecord]
      obtain ⟨hlive, hincarnations⟩ := h.leave hwf hwf'
        (detachConsumer_effect .byKey .admin hwf hchange).2
        (detachConsumer_effect .byKey .admin hwf' hchange').2 hcount hcount' hremoval
      rw [hchange, hchange']
      exact .changed (hanswer.trans hanswer'.symm) hlive hincarnations

end LiveState

namespace Operation

open Cascade LiveState

/-- An operation on states that agree on the keys that it holds comes to the same, and leaves them
agreeing there. -/
theorem decide_alike {P : EntityKey → Prop} {s s' : LiveState} (h : s.Agree P s')
    (hwf : s.topology.WellFormed) (hwf' : s'.topology.WellFormed) {op : Operation} {held : KeySet}
    (hheld : op.keys? s.topology = some held) (hkeys : ∀ key ∈ held, P key) (matcher : Matcher)
    (conn : ConnectionId) :
    Alike P s s' (op.decide matcher conn s) (op.decide matcher conn s') := by
  cases op with
  | declareExchange d passive =>
    obtain rfl := Option.some.inj hheld
    exact (declareExchange_alike h (hkeys _ (by simp)) passive).map fun _ => Answer.done
  | declareQueue d passive =>
    obtain ⟨hname, hheld⟩ := Option.ite_none_left_eq_some.1 hheld
    obtain rfl := Option.some.inj hheld
    exact (declareQueue_alike h hname (hkeys _ (by simp)) conn passive).map Answer.declared
  | bind b =>
    obtain rfl := Option.some.inj hheld
    exact (bind_alike h (hkeys _ (mem_keysOfBinding b))
      (hkeys _ (queue_mem_keysOfBinding b)) conn).map fun _ => Answer.done
  | unbind b =>
    obtain rfl := Option.some.inj hheld
    exact (unbind_alike h hwf hwf' (hkeys _ (mem_keysOfBinding b))
      (hkeys _ (queue_mem_keysOfBinding b)) conn).map fun _ => Answer.done
  | deleteQueue name ifUnused ifEmpty =>
    obtain rfl := Option.some.inj hheld
    exact (deleteQueue_alike h hwf hwf' (hkeys _ (mem_keysOfQueue.2 (Or.inl rfl))) conn ifUnused
      ifEmpty).map Answer.count
  | deleteExchange name ifUnused =>
    obtain rfl := Option.some.inj hheld
    exact (deleteExchange_alike h hwf hwf' (hkeys _ (mem_keysOfExchange.2 (Or.inl rfl)))
      ifUnused).map fun _ => Answer.done
  | purge name =>
    obtain rfl := Option.some.inj hheld
    exact (purge_alike h (hkeys _ (by simp)) conn).map Answer.count
  | attachConsumer name =>
    obtain rfl := Option.some.inj hheld
    have hattached := (attachConsumer_alike h (hkeys (.queue name) (by simp)) conn).map Answer.count
    have hsame : ∀ t, ((LiveState.attachConsumer conn name).map Prod.fst).map Answer.count t =
        (LiveState.attachConsumer conn name).map (fun r => Answer.count r.1) t := by
      intro t
      unfold Decision.map
      cases LiveState.attachConsumer conn name t with
      | error e => rfl
      | ok change => rfl
    rwa [hsame, hsame] at hattached
  | detachConsumer name =>
    obtain rfl := Option.some.inj hheld
    exact (detachConsumer_alike h hwf hwf' (hkeys _ (mem_keysOfQueue.2 (Or.inl rfl)))).map
      Answer.count
  | publish => cases hheld
  | fetch => cases hheld
  | route => cases hheld

end Operation

end BrokerTopology
