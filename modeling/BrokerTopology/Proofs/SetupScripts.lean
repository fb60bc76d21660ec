/-
  BrokerTopology.Proofs.SetupScripts — setup scripts can be run again.

  A setup script declares exchanges and named queues and binds them, on
  no connection, in any order, passively or not, and as often as it
  likes.  Once it has been carried out it is carried out again, call by
  call: each call finds a topology between what the first run had come to
  at this point and what it came to in the end, with all that lasts of
  the latter.

  Right after the first run everything is there, and nothing changes.
  After restarts the durable part is there, and the rest is set up again;
  since it does not outlive the broker, nothing is recorded.

  Main statements:
    * `Broker.runAll_again` — a script is carried out again on what
      retraces it.
    * `Broker.runAll_twice` — right away.
    * `Broker.runAll_restarted` — after restarts.
    * `Broker.setup_rerun` — both, on a broker just opened.
-/
import BrokerTopology.Proofs.FaultlessBrokers
import BrokerTopology.Proofs.Redeclaration

namespace BrokerTopology

namespace Broker

variable {medium handle : Type} [Medium medium handle]

/-! ## §1. Scripts -/

/-- What a script, run on no connection, makes of a broker and its medium. -/
def runAll (b : Broker handle) (m : medium) : List Operation → Broker handle × medium
  | [] => (b, m)
  | op :: ops => (b.run .admin op m).2.1.runAll (b.run .admin op m).2.2 ops

/-- Whether every call of a script is carried out. -/
def carriesOut (b : Broker handle) (m : medium) : List Operation → Bool
  | [] => true
  | op :: ops =>
    (b.run .admin op m).1.isOk && (b.run .admin op m).2.1.carriesOut (b.run .admin op m).2.2 ops

/-- What an operation that records nothing does to a broker. -/
theorem perform_of_unrecorded {α : Type} {d : Decision α} {b : Broker handle}
    {log : OpenLog handle} {change : Change α} (hlog : b.log = some log)
    (hd : d b.live = .ok change) (hops : change.ops = []) (m : medium) :
    b.perform d m = (.ok change.answer, { b with live := change.live }, m) := by
  unfold perform
  simp only [hlog, hd, hops, OpenLog.record_nil]

theorem runAll_calls (b : Broker handle) (m : medium) (script : List Operation) :
    Calls (b, m) (b.runAll m script) := by
  induction script generalizing b m with
  | nil => exact .refl
  | cons op ops ih => exact .head (Move.operation .admin op b m).call (ih _ _)

theorem isClosed_runAll (b : Broker handle) (m : medium) (script : List Operation) :
    (b.runAll m script).1.isClosed = b.isClosed := by
  induction script generalizing b m with
  | nil => rfl
  | cons op ops ih => exact (ih _ _).trans (perform_rest _ b m).2.2

/-- No script takes a number back. -/
theorem lastSeq_le_runAll (b : Broker handle) (m : medium) (script : List Operation) :
    b.lastSeq ≤ (b.runAll m script).1.lastSeq := by
  induction script generalizing b m with
  | nil => exact Nat.le_refl _
  | cons op ops ih => exact Nat.le_trans (b.lastSeq_le_perform _ m) (ih _ _)

/-- A script that is carried out keeps the journal in step. -/
theorem inStep_runAll {w : Faultless medium handle} {b : Broker handle} {m : medium}
    {script : List Operation} (h : w.InStep b m) (hok : b.carriesOut m script = true)
    (hfits : (b.runAll m script).1.lastSeq < Record.seqBound) :
    w.InStep (b.runAll m script).1 (b.runAll m script).2 := by
  induction script generalizing b m with
  | nil => exact h
  | cons op ops ih =>
    obtain ⟨hfirst, hrest⟩ := Bool.and_eq_true_iff.1 hok
    have hnumber := Nat.lt_of_le_of_lt (lastSeq_le_runAll _ _ ops) hfits
    exact ih (h.perform hfirst hnumber) hrest hfits

/-- A call of a script that is carried out, and what is in memory after it. -/
theorem ok_of_run {b : Broker handle} {m : medium} {op : Operation}
    (hok : (b.run .admin op m).1.isOk = true) :
    ∃ change, op.decide b.settings.matcher .admin b.live = .ok change ∧
      (b.run .admin op m).2.1.live = change.live := by
  obtain ⟨answer, hok⟩ := ok_of_isOk hok
  obtain ⟨change, hd, -, hlive⟩ := ok_of_perform hok
  exact ⟨change, hd, hlive⟩

/-- A script loses nothing. -/
theorem within_runAll {b : Broker handle} {m : medium} {script : List Operation}
    (hwf : b.live.topology.WellFormed) (hscript : ∀ op ∈ script, op.setsUp?.isSome = true)
    (hok : b.carriesOut m script = true) :
    b.live.topology.Within (b.runAll m script).1.live.topology := by
  induction script generalizing b m with
  | nil => exact .refl _
  | cons op ops ih =>
    obtain ⟨hop, hops⟩ := List.forall_mem_cons.1 hscript
    obtain ⟨hfirst, hrest⟩ := Bool.and_eq_true_iff.1 hok
    obtain ⟨⟨site, fixture⟩, hop⟩ := Option.isSome_iff_exists.1 hop
    obtain ⟨change, hd, hlive⟩ := ok_of_run hfirst
    have hwithin := (Operation.setUp_of_ok hwf hop hd).within
    rw [← hlive] at hwithin
    exact hwithin.trans (ih ((Move.operation .admin op b m).call.wellFormed hwf) hops hrest)

/-! ## §2. Once more -/

/-- A broker that has what lasts of a script, and nothing that is not of it, carries it out again,
records nothing, and ends with everything that the script set up. -/
theorem runAll_again {b b' : Broker handle} {m : medium} (m' : medium) {script : List Operation}
    {log : OpenLog handle} {t : Topology} (hend : (b.runAll m script).1.live.topology = t)
    (hwf : b.live.topology.WellFormed)
    (hwf' : b'.live.topology.WellFormed) (hlog : b'.log = some log)
    (hscript : ∀ op ∈ script, op.setsUp?.isSome = true) (hok : b.carriesOut m script = true)
    (h : b'.live.topology.Retraces b.live.topology t) :
    b'.carriesOut m' script = true ∧
      ∃ live, b'.runAll m' script = ({ b' with live }, m') ∧
        (∀ site, live.topology.look site = t.look site) ∧
        (t.Within b'.live.topology → live = b'.live) := by
  induction script generalizing b b' m with
  | nil =>
    subst hend
    exact ⟨rfl, b'.live, rfl, h.below.look_eq h.above, fun _ => rfl⟩
  | cons op ops ih =>
    obtain ⟨hop, hops⟩ := List.forall_mem_cons.1 hscript
    obtain ⟨hfirst, hrest⟩ := Bool.and_eq_true_iff.1 hok
    obtain ⟨⟨site, fixture⟩, hop⟩ := Option.isSome_iff_exists.1 hop
    obtain ⟨change, hd, hlive⟩ := ok_of_run hfirst
    have hnext : (b.run .admin op m).2.1.live.topology.WellFormed :=
      (Move.operation .admin op b m).call.wellFormed hwf
    have hafter : change.live.topology.Within t := by
      rw [← hlive, ← hend]
      exact within_runAll hnext hops hrest
    obtain ⟨change', hd', hunrecorded, hretraces, hkept⟩ :=
      Operation.again b'.settings.matcher hwf hwf' h hop hd hafter
    have hrun : b'.run .admin op m' = (.ok change'.answer, { b' with live := change'.live }, m') :=
      perform_of_unrecorded hlog hd' hunrecorded m'
    have hlog'' : ({ b' with live := change'.live } : Broker handle).log = some log := hlog
    have hwf'' : change'.live.topology.WellFormed :=
      ((Operation.stepwise _ _ op) _ _ hwf' hd').wellFormed hwf'
    rw [← hlive] at hretraces
    obtain ⟨hok', live, hall, hlook, hsame⟩ :=
      ih hend hnext hwf'' hlog'' hops hrest hretraces
    refine ⟨?_, live, ?_, hlook, ?_⟩
    · show ((b'.run .admin op m').1.isOk && _) = true
      rw [hrun]
      exact hok'
    · show (b'.run .admin op m').2.1.runAll (b'.run .admin op m').2.2 ops = _
      rw [hrun]
      exact hall
    · intro hthere
      have hlive' := hkept hthere
      rw [hsame (by rw [hlive']; exact hthere), hlive']

end Broker

/-- Two topologies have the same exchanges, bindings and queues, but for the numbers of queues. -/
structure Topology.Resembles (t t' : Topology) : Prop where
  exchanges : ∀ name, t.registry.exchange? name = t'.registry.exchange? name
  queues : ∀ name, (t.registry.queue? name).map Queue.unnumbered =
    (t'.registry.queue? name).map Queue.unnumbered
  bindings : ∀ b, b ∈ t.bindings ↔ b ∈ t'.bindings

theorem Topology.resembles_of_look {t t' : Topology} (h : ∀ site, t.look site = t'.look site) :
    t.Resembles t' := by
  refine ⟨fun name => look_exchange_inj (h (.exchange name)),
    fun name => look_queue_inj (h (.queue name)), fun b => ?_⟩
  have hb : ∀ t : Topology, b ∈ t.bindings ↔ t.look (.binding b) = some .binding := fun t => by
    rw [look_binding, eq_self, and_true]
  rw [hb t, hb t', h]

/-! ## §3. Right away and after restarts -/

namespace Broker

variable {medium handle : Type} [Medium medium handle] {b b₁ : Broker handle} {m m₁ : medium}
  {script : List Operation}

/-- A script that was carried out is carried out again right away, and changes nothing. -/
theorem runAll_twice {log : OpenLog handle} (hwf : b.live.topology.WellFormed)
    (hlog : b.log = some log) (hscript : ∀ op ∈ script, op.setsUp?.isSome = true)
    (hok : b.carriesOut m script = true) (hrun : b.runAll m script = (b₁, m₁)) :
    b₁.carriesOut m₁ script = true ∧ b₁.runAll m₁ script = (b₁, m₁) := by
  have hwf₁ : b₁.live.topology.WellFormed := by
    have hcalls := runAll_calls b m script
    rw [hrun] at hcalls
    exact hcalls.wellFormed hwf
  obtain ⟨log₁, hlog₁⟩ : ∃ log₁, b₁.log = some log₁ := by
    have hopen := isClosed_runAll b m script
    rw [hrun, isClosed, isClosed, hlog] at hopen
    exact Option.isSome_iff_exists.1 (Option.isNone_eq_false_iff.1 hopen)
  have hwithin := within_runAll hwf hscript hok
  rw [hrun] at hwithin
  obtain ⟨hok₁, live, hrerun, -, hsame⟩ :=
    runAll_again m₁ (by rw [hrun]) hwf hwf₁ hlog₁ hscript hok hwithin.retraces
  rw [hsame (.refl _)] at hrerun
  exact ⟨hok₁, hrerun⟩

/-- On a medium on which nothing fails it is carried out again after restarts, if all that was
there before it lasts.  It records nothing, and what it had come to is there again. -/
theorem runAll_restarted {w : Faultless medium handle} (hstep : w.InStep b m)
    (hb : b.Described) (hlasts : ∀ site, (b.live.topology.look site).isSome = true →
      b.live.topology.lasts site = true)
    (hscript : ∀ op ∈ script, op.setsUp?.isSome = true) (hok : b.carriesOut m script = true)
    (hrun : b.runAll m script = (b₁, m₁)) (hfits : b₁.lastSeq < Record.seqBound)
    (nonces : List UInt64) :
    ∃ b' m', b₁.restartAll m₁ nonces = (.ok b', m') ∧ b'.carriesOut m' script = true ∧
      ∃ live, b'.runAll m' script = ({ b' with live }, m') ∧
        live.topology.Resembles b₁.live.topology := by
  have hb₁ : b₁.Described := by
    have hcalls := runAll_calls b m script
    rw [hrun] at hcalls
    exact hcalls.described hb
  have hstep₁ : w.InStep b₁ m₁ := by
    have hafter := inStep_runAll hstep hok (by rw [hrun]; exact hfits)
    rwa [hrun] at hafter
  have hwithin := within_runAll hb.wellFormed hscript hok
  rw [hrun] at hwithin
  obtain ⟨b', m', hrestarts, ⟨log', -, hlog', -⟩, hafter⟩ :=
    hstep₁.restartAll hb₁.wellFormed hb₁.describes nonces
  have hretraces : b'.live.topology.WellFormed ∧
      b'.live.topology.Retraces b.live.topology b₁.live.topology := by
    rcases hafter with ⟨rfl, -⟩ | ⟨hwf', hrecovers⟩
    · exact ⟨hb₁.wellFormed, hwithin.retraces⟩
    · exact ⟨hwf', hrecovers.retraces hb₁.wellFormed hwithin hlasts⟩
  obtain ⟨hok', live, hrerun, hlook, -⟩ := runAll_again m' (by rw [hrun])
    hb.wellFormed hretraces.1 hlog' hscript hok hretraces.2
  exact ⟨b', m', hrestarts, hok', live, hrerun, Topology.resembles_of_look hlook⟩

/-- A setup script that is carried out on a broker just opened can be run again.  Right away it
changes nothing at all.  On a medium on which nothing fails the broker may be restarted first, any
number of times: the script records nothing and leads to the exchanges, queues and bindings that
were there before.  The numbers of the entries are such as can be written. -/
theorem setup_rerun {settings : BrokerSettings} {nonce : UInt64} {mailboxes : Mailboxes}
    {before : medium} (hopen : openOn settings nonce mailboxes before = (.ok b, m))
    (hscript : ∀ op ∈ script, op.setsUp?.isSome = true) (hok : b.carriesOut m script = true)
    (hrun : b.runAll m script = (b₁, m₁)) :
    (b₁.carriesOut m₁ script = true ∧ b₁.runAll m₁ script = (b₁, m₁)) ∧
      ∀ (w : Faultless medium handle) entries, w.Offers before entries →
        (∀ e ∈ entries, e.seq < Record.seqBound) → b₁.lastSeq < Record.seqBound →
        ∀ nonces, ∃ b' m', b₁.restartAll m₁ nonces = (.ok b', m') ∧
          b'.carriesOut m' script = true ∧
          ∃ live, b'.runAll m' script = ({ b' with live }, m') ∧
            live.topology.Resembles b₁.live.topology := by
  have hb : b.Described := Server.lasting_described.opened (congrArg Prod.fst hopen)
  refine ⟨?_, fun w entries hoffers hseq hfits nonces => ?_⟩
  · obtain ⟨log, -, -, rfl⟩ := openOn_log (congrArg Prod.fst hopen)
    exact runAll_twice hb.wellFormed rfl hscript hok hrun
  · obtain ⟨b', m', hopen', hstep, hlive, -⟩ :=
      Faultless.openOn_broker hoffers hseq settings nonce mailboxes
    obtain ⟨hb', rfl⟩ := Prod.mk.inj (hopen.symm.trans hopen')
    obtain rfl := Except.ok.inj hb'
    refine runAll_restarted hstep hb (fun site => ?_) hscript hok hrun hfits nonces
    rw [hlive]
    exact Topology.lasts_restore (DurableState.closed_ofEntries entries)

/-- Exchanges and queues of every sort, one of them looked up with other parameters than it has, and
a binding made twice. -/
theorem setup_rerun_of_every_sort :
    let script : List Operation :=
      [.declareExchange ⟨"x", .topic, true, false⟩ false,
        .declareExchange ⟨"y", .fanout, false, true⟩ false,
        .declareExchange ⟨"", .fanout, false, false⟩ true,
        .declareQueue ⟨"d", true, false, false⟩ false,
        .declareQueue ⟨"e", true, true, false⟩ false, .bind ⟨"d", "x", "k"⟩,
        .declareQueue ⟨"t", false, false, true⟩ false, .bind ⟨"e", "x", "#"⟩,
        .declareQueue ⟨"e", false, false, true⟩ true, .bind ⟨"d", "y", ""⟩,
        .bind ⟨"d", "x", "k"⟩, .declareExchange ⟨"x", .topic, true, false⟩ false]
    ∃ (b b' : Broker Unit) (m m' : MemoryLog) (live : LiveState),
      b.live.topology.registry.queueList.length = 3 ∧ b.runAll m script = (b, m) ∧
        b.restartAll m [2, 3] = (.ok b', m') ∧ b'.live.topology.registry.queueList.length = 1 ∧
        b'.runAll m' script = ({ b' with live }, m') ∧
        live.topology.Resembles b.live.topology := by
  intro script
  let queues (b : Broker Unit) : Nat := b.live.topology.registry.queueList.length
  obtain ⟨b₀, m₀, hopen, hok, hfits, hqueues, hleft⟩ : ∃ (b₀ : Broker Unit) (m₀ : MemoryLog),
      openOn {} 1 .empty ({} : MemoryLog) = (.ok b₀, m₀) ∧ b₀.carriesOut m₀ script = true ∧
      (b₀.runAll m₀ script).1.lastSeq < Record.seqBound ∧ queues (b₀.runAll m₀ script).1 = 3 ∧
      ((b₀.runAll m₀ script).1.restartAll (b₀.runAll m₀ script).2 [2, 3]).1.toOption.map queues =
        some 1 := by
    refine ⟨_, _, rfl, ?_, ?_, ?_, ?_⟩ <;> decide +kernel
  obtain ⟨⟨-, hsame⟩, hrestarts⟩ :=
    setup_rerun hopen (by decide) hok (Prod.eta (b₀.runAll m₀ script)).symm
  obtain ⟨b', m', hall, -, live, hlive, hresembles⟩ :=
    hrestarts MemoryLog.faultless [] rfl (by simp) hfits [2, 3]
  rw [hall] at hleft
  exact ⟨_, b', _, m', live, hqueues, hsame, hall, Option.some.inj hleft, hlive, hresembles⟩

end Broker

end BrokerTopology
