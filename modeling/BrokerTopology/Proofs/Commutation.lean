/-
  BrokerTopology.Proofs.Commutation — operations that hold no key in
  common may be done in either order.

  An operation changes nothing under keys that it does not hold, and goes
  by nothing but those it holds.  So the keys of another are as they were,
  and it comes to what it would have come to anyway; and under each key
  the state is in the end as the one of the two left it that holds the
  key, or neither.

  Topologies that agree under every key are equal up to the numbers of
  their queues, and those come from one counter: each operation takes as
  many numbers second as it would have taken first.  What the journals
  hold is the durable part of the topology, and their entries for
  built-in exchanges, which nothing changes.

  Main statements:
    * `Operation.after_other` — an operation after one that holds none of
      its keys.
    * `Operation.disjoint_commute` — two such, in either order, on a state.
    * `Broker.durable?_perform` — what a journal has of built-in exchanges.
    * `Server.disjoint_operations_commute` — two such on a broker with a
      writable log, in every run.
-/
import BrokerTopology.Proofs.CanonicalForm
import BrokerTopology.Proofs.Footprints
import BrokerTopology.Proofs.WritableLogs

namespace BrokerTopology

/-! ## §1. One operation after another -/

namespace Decision

variable {α : Type}

/-- What a decision answers. -/
def result (d : Decision α) (s : LiveState) : Except Refusal α := (d s).map Change.answer

/-- What it leaves in memory, once it holds; refused, it leaves everything as it is. -/
def after (d : Decision α) (s : LiveState) : LiveState :=
  match d s with
  | .error _ => s
  | .ok change => change.live

theorem Stepwise.wellFormed_after {d : Decision α} (hd : d.Stepwise) {s : LiveState}
    (h : s.topology.WellFormed) : (d.after s).topology.WellFormed := by
  unfold after
  split
  next => exact h
  next change hchange => exact (hd s change h hchange).wellFormed h

end Decision

/-- Decisions that are alike have the same answer, leave the same under the keys they agreed on,
and take as many numbers. -/
theorem LiveState.Alike.outcome {α : Type} {P : EntityKey → Prop} {s s' : LiveState}
    (h : s.Agree P s') {d : Decision α} (halike : Alike P s s' (d s) (d s')) :
    d.result s = d.result s' ∧ (d.after s).Agree P (d.after s') ∧
      (d.after s).topology.registry.lastIncarnation + s'.topology.registry.lastIncarnation =
        (d.after s').topology.registry.lastIncarnation + s.topology.registry.lastIncarnation := by
  unfold Decision.result Decision.after
  generalize d s = outcome, d s' = outcome' at halike
  cases halike with
  | refused e => exact ⟨rfl, h, Nat.add_comm _ _⟩
  | changed answer live incarnations => exact ⟨congrArg Except.ok answer, live, incarnations⟩

namespace Operation

variable {matcher : Matcher} {conn conn' : ConnectionId} {op op' : Operation} {s : LiveState}
  {held held' : KeySet}

/-- An operation, refused or not, changes nothing but what it holds. -/
theorem after_frame (hwf : s.topology.WellFormed) (hheld : op.keys? s.topology = some held)
    (matcher : Matcher) (conn : ConnectionId) :
    s.Agree (· ∉ held) ((op.decide matcher conn).after s) ∧
      ((op.decide matcher conn).after s).topology.registry.names = s.topology.registry.names := by
  unfold Decision.after
  split
  next => exact ⟨.refl _ _, rfl⟩
  next change hchange => exact (effect hwf hchange).frame hwf hheld

/-- After another that holds none of its keys an operation holds the same keys, answers the same,
takes as many numbers, and leaves the same as alone, except for what the other holds. -/
theorem after_other (hwf : s.topology.WellFormed) (hheld : op.keys? s.topology = some held)
    (hheld' : op'.keys? s.topology = some held') (hdisjoint : ∀ key ∈ held, key ∉ held')
    (matcher : Matcher) (conn conn' : ConnectionId) :
    op.keys? ((op'.decide matcher conn').after s).topology = some held ∧
      (op.decide matcher conn).result s =
        (op.decide matcher conn).result ((op'.decide matcher conn').after s) ∧
      ((op.decide matcher conn).after s).Agree (· ∉ held')
        ((op.decide matcher conn).after ((op'.decide matcher conn').after s)) ∧
      ((op.decide matcher conn).after s).topology.registry.lastIncarnation +
          ((op'.decide matcher conn').after s).topology.registry.lastIncarnation =
        ((op.decide matcher conn).after
            ((op'.decide matcher conn').after s)).topology.registry.lastIncarnation +
          s.topology.registry.lastIncarnation := by
  have hframe := (after_frame hwf hheld' matcher conn').1
  have hwf' := (op'.stepwise matcher conn').wellFormed_after hwf
  exact ⟨keys?_congr hheld (hframe.mono hdisjoint) hwf hwf',
    (decide_alike hframe hwf hwf' hheld hdisjoint matcher conn).outcome hframe⟩

/-- Two operations that hold no key in common, in either order: each answers the same, and what is
left is the same under every key, with the same names and as many numbers used up. -/
theorem disjoint_commute (hwf : s.topology.WellFormed) (hheld : op.keys? s.topology = some held)
    (hheld' : op'.keys? s.topology = some held') (hdisjoint : ∀ key ∈ held, key ∉ held')
    (matcher : Matcher) (conn conn' : ConnectionId) :
    let first := (op.decide matcher conn).after s
    let second := (op'.decide matcher conn').after s
    let one := (op'.decide matcher conn').after first
    let other := (op.decide matcher conn).after second
    (op.decide matcher conn).result s = (op.decide matcher conn).result second ∧
      (op'.decide matcher conn').result first = (op'.decide matcher conn').result s ∧
      one.Agree (fun _ => True) other ∧
      one.topology.registry.names = other.topology.registry.names ∧
      one.topology.registry.lastIncarnation = other.topology.registry.lastIncarnation := by
  intro first second one other
  have hdisjoint' : ∀ key ∈ held', key ∉ held := fun key hkey' hkey => hdisjoint key hkey hkey'
  obtain ⟨hkeys, hresult, halone, hnumbers⟩ :=
    after_other hwf hheld hheld' hdisjoint matcher conn conn'
  obtain ⟨hkeys', hresult', halone', hnumbers'⟩ :=
    after_other hwf hheld' hheld hdisjoint' matcher conn' conn
  have hfirst := (op.stepwise matcher conn).wellFormed_after hwf
  have hsecond := (op'.stepwise matcher conn').wellFormed_after hwf
  obtain ⟨hframe, hnames⟩ := after_frame hwf hheld matcher conn
  obtain ⟨hframe', hnames'⟩ := after_frame hwf hheld' matcher conn'
  obtain ⟨hlater, hlaterNames⟩ := after_frame hsecond hkeys matcher conn
  obtain ⟨hlater', hlaterNames'⟩ := after_frame hfirst hkeys' matcher conn'
  -- what the second does not hold is as the first left it, and the other way round
  have hunheld' : one.Agree (· ∉ held') other := hlater'.symm.trans halone
  have hunheld : one.Agree (· ∉ held) other := halone'.symm.trans hlater
  refine ⟨hresult, hresult'.symm, (hunheld'.or hunheld).mono fun key _ => ?_, ?_, ?_⟩
  · by_cases hkey : key ∈ held
    · exact Or.inl (hdisjoint key hkey)
    · exact Or.inr hkey
  · exact (hlaterNames'.trans hnames).trans (hlaterNames.trans hnames').symm
  · show one.topology.registry.lastIncarnation = other.topology.registry.lastIncarnation
    -- the numbers used up by each add up to the same
    have hnumbers : first.topology.registry.lastIncarnation +
        second.topology.registry.lastIncarnation =
      other.topology.registry.lastIncarnation + s.topology.registry.lastIncarnation := hnumbers
    have hnumbers' : second.topology.registry.lastIncarnation +
        first.topology.registry.lastIncarnation =
      one.topology.registry.lastIncarnation + s.topology.registry.lastIncarnation := hnumbers'
    omega

end Operation

/-! ## §2. What journals have of built-in exchanges -/

namespace Topology

variable {t t' : Topology} {ops : List DurableOp}

/-- Nothing is recorded of a built-in exchange: what a state has under such a name stays. -/
theorem Step.builtins_kept (h : t.WellFormed) (hstep : Step t ops t') (s : DurableState)
    {name : String} (hname : Name.isBuiltin name = true) :
    (s.applyAll ops).exchanges[name]? = s.exchanges[name]? := by
  cases hstep with
  | names => rfl
  | attach => rfl
  | detach => rfl
  | @exchange d hnew =>
    split
    next =>
      -- the built-in exchanges are there, so a name that is free is none of theirs
      have hne : d.name ≠ name := by
        rintro rfl
        rw [h.isBuiltin_of_absent hnew] at hname
        cases hname
      show (s.exchanges.insert d.name _)[name]? = _
      rw [Std.ExtTreeMap.getElem?_insert, if_neg (by simpa using hne)]
    next => rfl
  | queue =>
    split
    next => rfl
    next => rfl
  | @binding b =>
    split
    next =>
      show (s.apply (.bind b)).2.exchanges[name]? = _
      simp only [DurableState.apply]
      split
      next => rfl
      next => rfl
    next => rfl
  | @removal r hr =>
    cases r with
    | binding b =>
      simp only [recordOf]
      split
      next => rfl
      next => rfl
    | queue q =>
      simp only [recordOf]
      split
      next => rfl
      next => rfl
    | exchange x =>
      simp only [recordOf]
      split
      next =>
        -- and none of them is ever deleted
        obtain ⟨record, hrecord, hbuiltin⟩ := hr
        have hne : x ≠ name := by
          rintro rfl
          rw [h.builtin_iff x record hrecord, hname] at hbuiltin
          cases hbuiltin
        show (s.exchanges.erase x)[name]? = _
        rw [Std.ExtTreeMap.getElem?_erase, if_neg (by simpa using hne)]
      next => rfl

theorem Steps.builtins_kept (h : t.WellFormed) (hsteps : Steps t ops t') (s : DurableState)
    {name : String} (hname : Name.isBuiltin name = true) :
    (s.applyAll ops).exchanges[name]? = s.exchanges[name]? := by
  induction hsteps generalizing s with
  | refl t => rfl
  | cons hstep _ ih =>
    rw [DurableState.applyAll_append, ih (hstep.wellFormed h), hstep.builtins_kept h s hname]

end Topology

namespace DurableState.Describes

variable {s s' : DurableState} {t : Topology}

/-- The numbers of queues are not written to journals. -/
theorem unnumbered (h : s.Describes t) : s.Describes t.unnumbered := by
  have hqueue : ∀ q, (t.unnumbered.registry.queue? q).map Queue.definition =
      (t.registry.queue? q).map Queue.definition := by
    intro q
    show ((t.registry.queues.map fun _ q => q.unnumbered)[q]?).map Queue.definition = _
    rw [Std.ExtTreeMap.getElem?_map, Option.map_map]
    rfl
  have hpersistent : ∀ b, t.unnumbered.isPersistent b = t.isPersistent b := by
    intro b
    refine congrArg (_ && ·) ?_
    have hany : ∀ q? : Option Queue, q?.any (fun q => q.definition.persistent) =
        (q?.map Queue.definition).any QueueDef.persistent := fun q? => by rw [Option.any_map]
    rw [hany, hany, hqueue]
  refine ⟨h.exchanges, fun q => (h.queues q).trans (by rw [hqueue]), fun b => ?_⟩
  rw [h.bindings, hpersistent]
  rfl

/-- A state is known from the topology that it describes, and what it has of built-in
exchanges. -/
theorem ext (h : s.Describes t) (h' : s'.Describes t)
    (hbuiltins : ∀ name, Name.isBuiltin name = true → s.exchanges[name]? = s'.exchanges[name]?) :
    s = s' := by
  have hexchanges : s.exchanges = s'.exchanges := by
    refine Std.ExtTreeMap.ext_getElem? fun name => ?_
    cases hname : Name.isBuiltin name with
    | true => exact hbuiltins name hname
    | false => exact (h.exchanges name hname).trans (h'.exchanges name hname).symm
  have hqueues : s.queues = s'.queues :=
    Std.ExtTreeMap.ext_getElem? fun name => (h.queues name).trans (h'.queues name).symm
  have hbindings : s.bindings = s'.bindings :=
    Std.ExtTreeSet.ext_mem fun b => (h.bindings b).trans (h'.bindings b).symm
  obtain ⟨exchanges, queues, bindings⟩ := s
  obtain rfl : exchanges = s'.exchanges := hexchanges
  obtain rfl : queues = s'.queues := hqueues
  obtain rfl : bindings = s'.bindings := hbindings
  rfl

end DurableState.Describes

/-! ## §3. Brokers -/

section

variable {medium handle : Type} [Medium medium handle]

namespace Broker

/-- What the journal of a broker holds, as long as it is open. -/
def durable? (b : Broker handle) : Option DurableState := b.log.map fun log => log.journal.state

/-- Two operations, one after the other: the answer to each, and the broker after both. -/
def runBoth (conn : ConnectionId) (op : Operation) (conn' : ConnectionId) (op' : Operation)
    (b : Broker handle) (m : medium) : Except Refusal Answer × Except Refusal Answer ×
      Broker handle :=
  let (answer, between, m) := b.run conn op m
  let (answer', after, _) := between.run conn' op' m
  (answer, answer', after)

/-- An operation leaves alone what the journal has of built-in exchanges. -/
theorem durable?_perform {α : Type} {d : Decision α} (hd : d.Stepwise) {b : Broker handle}
    (h : b.live.topology.WellFormed) (m : medium) {name : String}
    (hname : Name.isBuiltin name = true) :
    (b.perform d m).2.1.durable?.map (fun s => s.exchanges[name]?) =
      b.durable?.map fun s => s.exchanges[name]? := by
  have hperformed := performed d b m
  generalize b.perform d m = outcome at hperformed ⊢
  cases hperformed with
  | closed => rfl
  | refused => rfl
  | @unrecorded log after change _ _ hlog _ hrecord =>
    have hstate := log.record_state change.ops m
    rw [hrecord] at hstate
    unfold durable?
    rw [hlog, Option.map_some, Option.map_some, Option.map_some, Option.map_some, hstate]
  | @recorded log after change _ hlog hchange hrecord =>
    have hstate := log.record_state change.ops m
    rw [hrecord] at hstate
    unfold durable?
    rw [hlog, Option.map_some, Option.map_some, Option.map_some, Option.map_some, hstate]
    exact congrArg some ((hd _ _ h hchange).builtins_kept h _ hname)

/-- A broker on which operations take effect: its log is writable, what it keeps hangs together,
and its journal knows what of it lasts. -/
structure Working (b : Broker handle) (m : medium) : Prop where
  canRecord : b.CanRecord m
  described : b.Described
  canonical : b.live.topology.Canonical

/-- An operation on such a broker is what was decided, and the broker is such afterwards. -/
theorem Working.run {b : Broker handle} {m : medium} (h : b.Working m) (conn : ConnectionId)
    (op : Operation) :
    (b.run conn op m).1 = (op.decide b.settings.matcher conn).result b.live ∧
      (b.run conn op m).2.1.live = (op.decide b.settings.matcher conn).after b.live ∧
      (b.run conn op m).2.1.settings = b.settings ∧
      (b.run conn op m).2.1.Working (b.run conn op m).2.2 := by
  have hcall : Call (b, m) (b.run conn op m).2 := .perform (op.stepwise b.settings.matcher conn) b m
  have hdescribed : (b.run conn op m).2.1.Described := hcall.described h.described
  have hcanonical : (b.run conn op m).2.1.live.topology.Canonical := by
    obtain ⟨ops, hsteps⟩ := hcall.steps h.described.wellFormed
    exact hsteps.canonical h.described.wellFormed h.canonical
  unfold Decision.result Decision.after
  rcases perform_of_canRecord (op.decide b.settings.matcher conn) h.canRecord with
    ⟨e, hd, hrun⟩ | ⟨change, hd, hanswer, hlive, hsettings, hcan⟩
  · replace hrun : b.run conn op m = (.error e, b, m) := hrun
    rw [hrun, hd]
    exact ⟨rfl, rfl, rfl, h⟩
  · rw [hd]
    exact ⟨hanswer, hlive, hsettings, hcan, hdescribed, hcanonical⟩

/-- Two operations, one after the other. -/
theorem Working.runBoth {b : Broker handle} {m : medium} (h : b.Working m) (conn : ConnectionId)
    (op : Operation) (conn' : ConnectionId) (op' : Operation) :
    let first := (op.decide b.settings.matcher conn).after b.live
    ∃ after m', b.runBoth conn op conn' op' m =
        ((op.decide b.settings.matcher conn).result b.live,
          (op'.decide b.settings.matcher conn').result first, after) ∧
      after.live = (op'.decide b.settings.matcher conn').after first ∧
      after.Working (m' : medium) ∧ ∀ name, Name.isBuiltin name = true →
        after.durable?.map (fun s => s.exchanges[name]?) =
          b.durable?.map fun s => s.exchanges[name]? := by
  obtain ⟨hanswer, hlive, hsettings, hbetween⟩ := h.run conn op
  obtain ⟨hanswer', hlive', -, hafter⟩ := hbetween.run conn' op'
  rw [hsettings, hlive] at hanswer' hlive'
  refine ⟨_, _, Prod.ext hanswer (Prod.ext hanswer' rfl), hlive', hafter, fun name hname => ?_⟩
  exact (durable?_perform (op'.stepwise _ conn') hbetween.described.wellFormed _ hname).trans
    (durable?_perform (op.stepwise _ conn) h.described.wellFormed m hname)

/-- Brokers with equal topologies have equal journals, if they have the same of built-in
exchanges. -/
theorem Working.durable?_eq {b b' : Broker handle} {m m' : medium} (h : b.Working m)
    (h' : b'.Working m')
    (htopology : b.live.topology.unnumbered = b'.live.topology.unnumbered)
    (hbuiltins : ∀ name, Name.isBuiltin name = true →
      b.durable?.map (fun s => s.exchanges[name]?) = b'.durable?.map fun s => s.exchanges[name]?) :
    ∃ state, b.durable? = some state ∧ b'.durable? = some state := by
  obtain ⟨log, hlog, -⟩ := h.canRecord
  obtain ⟨log', hlog', -⟩ := h'.canRecord
  have hdurable : b.durable? = some log.journal.state := by rw [durable?, hlog, Option.map_some]
  have hdurable' : b'.durable? = some log'.journal.state := by rw [durable?, hlog', Option.map_some]
  have hdescribes := (h.described.describes log hlog).unnumbered
  have hdescribes' := (h'.described.describes log' hlog').unnumbered
  rw [← htopology] at hdescribes'
  have hstate : log.journal.state = log'.journal.state := by
    refine hdescribes.ext hdescribes' fun name hname => ?_
    have hsame := hbuiltins name hname
    rw [hdurable, hdurable', Option.map_some, Option.map_some] at hsame
    exact Option.some.inj hsame
  exact ⟨_, hdurable, hstate ▸ hdurable'⟩

end Broker

namespace Server

open Host

/-- In every state that a host can reach, and on whatever medium the log is then writable: two
operations that hold no key in common may be done in either order.  Each of them gives the same
answer, and in the end the registry but for the numbers of the queues, the binding table, the
counts of consumers and of bindings, the messages that wait and what the journal holds are the
same. -/
theorem disjoint_operations_commute (settings : BrokerSettings) (nonce : UInt64)
    (shared : Option Mailboxes) (start : medium) (events : List (Event medium)) {number : Nat}
    {s : Server handle}
    (hs : ((fresh settings nonce shared start).afterAll events).server? number = some s)
    {m : medium} (hrecord : s.broker.CanRecord m) (conn conn' : ConnectionId) {op op' : Operation}
    {held held' : KeySet} (hheld : op.keys? s.broker.live.topology = some held)
    (hheld' : op'.keys? s.broker.live.topology = some held')
    (hdisjoint : ∀ key ∈ held, key ∉ held') :
    ∃ answer answer' one other state,
      s.broker.runBoth conn op conn' op' m = (answer, answer', one) ∧
      s.broker.runBoth conn' op' conn op m = (answer', answer, other) ∧
      one.live.topology.unnumbered = other.live.topology.unnumbered ∧
      (∀ queue, one.live.mailboxes.pending queue = other.live.mailboxes.pending queue) ∧
      one.durable? = some state ∧ other.durable? = some state := by
  -- what is true of every server of every run
  have hwf := lasting_server? lasting_wellFormed hs
  have hworking : s.broker.Working m :=
    ⟨hrecord, lasting_server? lasting_described hs, (lasting_server? lasting_canonical hs).2⟩
  obtain ⟨hresult, hresult', hagree, hnames, hnumbers⟩ :=
    Operation.disjoint_commute hwf hheld hheld' hdisjoint s.broker.settings.matcher conn conn'
  obtain ⟨one, _, hone, honeLive, honeWorking, honeBuiltins⟩ :=
    hworking.runBoth conn op conn' op'
  obtain ⟨other, _, hother, hotherLive, hotherWorking, hotherBuiltins⟩ :=
    hworking.runBoth conn' op' conn op
  -- each answers in either order what it would have answered alone
  rw [hresult'] at hone
  rw [← hresult] at hother
  rw [← honeLive, ← hotherLive] at hagree hnames hnumbers
  have htopology : one.live.topology.unnumbered = other.live.topology.unnumbered :=
    honeWorking.canonical.ext hotherWorking.canonical honeWorking.described.wellFormed
      hotherWorking.described.wellFormed (fun x => hagree.exchange x trivial)
      (fun q => hagree.queue q trivial) hnames hnumbers (fun q => hagree.consumers q trivial)
      fun b => hagree.binding b (Or.inl trivial)
  obtain ⟨state, hstate, hstate'⟩ := honeWorking.durable?_eq hotherWorking htopology
    fun name hname => (honeBuiltins name hname).trans (hotherBuiltins name hname).symm
  exact ⟨_, _, one, other, state, hone, hother, htopology, fun q => hagree.pending q trivial,
    hstate, hstate'⟩

/-- The last consumer of one auto-delete queue leaves, and another is unbound: each takes an
auto-delete exchange along. -/
theorem disjoint_operations_commute_of_cascades :
    ∃ s, ((fresh {} 1 none ({} : MemoryLog)).afterAll
        [.start, .ask 0 (.operation (.declareExchange ⟨"x", .topic, true, true⟩ false)),
          .ask 0 (.operation (.declareExchange ⟨"y", .direct, true, true⟩ false)),
          .ask 0 (.operation (.declareQueue ⟨"q", true, false, true⟩ false)),
          .ask 0 (.operation (.declareQueue ⟨"p", true, false, true⟩ false)),
          .ask 0 (.operation (.bind ⟨"q", "x", "#"⟩)), .ask 0 (.operation (.bind ⟨"p", "y", "k"⟩)),
          .ask 0 (.operation (.attachConsumer "q"))]).server? 0 = some s ∧
      (s.broker.runBoth .admin (.detachConsumer "q") .admin (.unbind ⟨"p", "y", "k"⟩)
        ({} : MemoryLog)).2.2.live.topology.registry.exchangeList = Exchange.builtins ∧
      ∃ answer answer' one other state,
        s.broker.runBoth .admin (.detachConsumer "q") .admin (.unbind ⟨"p", "y", "k"⟩)
          ({} : MemoryLog) = (answer, answer', one) ∧
        s.broker.runBoth .admin (.unbind ⟨"p", "y", "k"⟩) .admin (.detachConsumer "q")
          ({} : MemoryLog) = (answer', answer, other) ∧
        one.live.topology.unnumbered = other.live.topology.unnumbered ∧
        (∀ queue, one.live.mailboxes.pending queue = other.live.mailboxes.pending queue) ∧
        one.durable? = some state ∧ other.durable? = some state := by
  have hdisjoint : ∀ {held held' : KeySet},
      (held.toList.all fun key => !held'.contains key) = true → ∀ key ∈ held, key ∉ held' := by
    intro held held' hall key hkey
    have hout := List.all_eq_true.1 hall key (Std.ExtTreeSet.mem_toList.2 hkey)
    rwa [Bool.not_eq_true', ← Bool.not_eq_true, Std.ExtTreeSet.contains_iff_mem] at hout
  refine ⟨_, (Option.some_get ?_).symm, ?_,
    disjoint_operations_commute _ _ _ _ _ (Option.some_get ?_).symm
      ⟨_, (Option.some_get ?_).symm, LogStore.writable_memory rfl⟩ _ _ rfl rfl (hdisjoint ?_)⟩
  all_goals decide +kernel

end Server

end

end BrokerTopology
