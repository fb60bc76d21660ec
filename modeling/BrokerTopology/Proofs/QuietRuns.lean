/-
  BrokerTopology.Proofs.QuietRuns — runs of the program that leave alone
  what lasts.

  Every run opens the log, and to open it is to rewrite it, whatever the
  run was started for.  So the file is another one afterwards even if
  nothing was asked for but to be shown what is there.  What it adds up to
  is not: a run that asks for nothing durable keeps that, and so does a
  run that fails, at whatever point.

  Two things may keep a run from opening the log where nothing fails on
  the disk: a wrong command line or environment, and a lock that somebody
  else holds.  The first touches nothing, and the second nothing but the
  lock file.  After that the journal knows what the log adds up to, and
  each request is either recorded, and then the run succeeds, or leaves
  the journal as it is.

  Main statements:
    * `Disk.Hosts.logs_iff` — what it is for a log to add up to a state.
    * `Faultless.Records.perform_of_no_ops`, `Faultless.Records.compact` —
      what a broker may do without recording anything.
    * `Cli.records_carryOut` — a request that asks for nothing durable or
      fails.
    * `Cli.run_keeps_state` — a run that does, on any arguments.
-/
import BrokerTopology.Cli.Program
import BrokerTopology.Proofs.FaultlessBrokers

namespace BrokerTopology

/-! ## §1. What a log adds up to -/

namespace JournalFile

variable {f : JournalFile} {d : Disk} {path : String} {number : Nat} {entries : List JournalEntry}

/-- A log that is read has a text, or there is none. -/
theorem text_of_load (h : d.Hosts path number) (hf : f.directory = path)
    (hload : f.load d = .ok entries) :
    ∃ text : Option (List Char), d.logBytes number = text.map encode ∧
      Lines.parse (text.getD []) = .ok entries := by
  suffices htext : ∃ text : Option (List Char), d.logBytes number = text.map encode by
    obtain ⟨text, hbytes⟩ := htext
    exact ⟨text, hbytes, (load_of_hosts h hf hbytes).symm.trans hload⟩
  cases hbytes : d.logBytes number with
  | none => exact ⟨none, rfl⟩
  | some bytes =>
    by_cases hvalid : bytes.IsValidUTF8
    · obtain ⟨text, rfl⟩ := hvalid
      exact ⟨some text, by rw [Option.map_some, encode_eq]⟩
    · have hread := h.read_eq fileName_mem_names
      obtain ⟨found, hfound, hsame⟩ := Option.map_eq_some_iff.1 hbytes
      rw [hfound, ← show f.path = Path.join path fileName from congrArg pathIn hf] at hread
      rw [load_of_notText (hread.trans (congrArg Except.ok hsame)) hvalid] at hload
      cases hload

end JournalFile

namespace Disk

open JournalFile

/-- Nothing on the disk is in the way of a log in the directory at a path, and what is read there
adds up to this state.  A directory that is not there yet is made first. -/
def Logs (d : Disk) (path : String) (state : DurableState) : Prop :=
  ∃ made number entries, d.makeDirectories path = (.ok (), made) ∧ made.Hosts path number ∧
    (∀ f : JournalFile, f.directory = path → f.load made = .ok entries) ∧
    DurableState.ofEntries entries = state

variable {d made : Disk} {path : String} {number : Nat} {state : DurableState}

/-- Of a directory that is there it says what is read in it now. -/
theorem Hosts.logs_iff (h : d.Hosts path number) :
    d.Logs path state ↔ ∃ entries, (∀ f : JournalFile, f.directory = path →
      f.load d = .ok entries) ∧ DurableState.ofEntries entries = state := by
  constructor
  · rintro ⟨made, -, entries, hmake, -, hload, hstate⟩
    obtain rfl : d = made := congrArg Prod.snd (h.makeDirectories.symm.trans hmake)
    exact ⟨entries, hload, hstate⟩
  · rintro ⟨entries, hload, hstate⟩
    exact ⟨d, number, entries, h.makeDirectories, h, hload, hstate⟩

/-- The text that is read. -/
theorem Logs.text (h : d.Logs path state) :
    ∃ (made : Disk) (number : Nat) (text : Option (List Char)) (entries : List JournalEntry),
      d.makeDirectories path = (.ok (), made) ∧ made.Hosts path number ∧
      made.logBytes number = text.map encode ∧ Lines.parse (text.getD []) = .ok entries ∧
      DurableState.ofEntries entries = state := by
  obtain ⟨made, number, entries, hmake, hhosts, hload, hstate⟩ := h
  obtain ⟨text, hbytes, hparse⟩ := text_of_load hhosts rfl
    (hload { directory := path, lock := { file := Disk.root, path := "" } } rfl)
  exact ⟨made, number, text, entries, hmake, hhosts, hbytes, hparse, hstate⟩

theorem logs_of_text (hmake : d.makeDirectories path = (.ok (), made))
    (hhosts : made.Hosts path number) {text : Option (List Char)} {entries : List JournalEntry}
    (hbytes : made.logBytes number = text.map encode)
    (hparse : Lines.parse (text.getD []) = .ok entries) :
    d.Logs path (.ofEntries entries) :=
  ⟨made, number, entries, hmake, hhosts,
    fun _ hf => (load_of_hosts hhosts hf hbytes).trans hparse, rfl⟩

end Disk

theorem JournalDirectory.logs_of_offers {path : String} {m : JournalDirectory}
    {entries : List JournalEntry} (h : (faultless path).Offers m entries) :
    m.disk.Logs path (.ofEntries entries) := by
  obtain ⟨rfl, text, ⟨made, number, hmake, hoffers⟩, hparse⟩ := h
  exact Disk.logs_of_text hmake hoffers.hosts hoffers.logBytes_eq hparse

/-! ## §2. What a broker may do without recording anything -/

namespace Faultless

variable {medium handle : Type} [Medium medium handle] {w : Faultless medium handle}
  {b : Broker handle} {m : medium} {state : DurableState}

/-- A broker whose journal is in step with its log, and knows that it adds up to this state. -/
structure Records (w : Faultless medium handle) (state : DurableState) (b : Broker handle)
    (m : medium) : Prop where
  inStep : w.InStep b m
  state_eq : ∀ log, b.log = some log → log.journal.state = state

/-- Only the log of the broker matters. -/
theorem Records.of_log {other : Broker handle} (h : w.Records state b m)
    (hlog : other.log = b.log) : w.Records state other m := by
  obtain ⟨log, entries, hopen, hrest⟩ := h.inStep
  exact ⟨⟨log, entries, hlog.trans hopen, hrest⟩, fun log' hlog' => h.state_eq log' (hlog ▸ hlog')⟩

/-- A broker records what the log that it is opened on adds up to. -/
theorem records_openOn {entries : List JournalEntry} (h : w.Offers m entries)
    (hseq : ∀ e ∈ entries, e.seq < Record.seqBound) (settings : BrokerSettings) (nonce : UInt64)
    (mailboxes : Mailboxes) :
    ∃ b after, Broker.openOn settings nonce mailboxes m = (.ok b, after) ∧
      w.Records (.ofEntries entries) b after := by
  obtain ⟨b, after, hopen, hstep, -, hstate⟩ := openOn_broker h hseq settings nonce mailboxes
  exact ⟨b, after, hopen, hstep, hstate⟩

theorem Records.perform_of_no_ops {α : Type} (h : w.Records state b m) {d : Decision α}
    (hd : ∀ change, d b.live = .ok change → change.ops = []) :
    w.Records state (b.perform d m).2.1 (b.perform d m).2.2 := by
  have hperformed := Broker.performed d b m
  generalize b.perform d m = outcome at hperformed ⊢
  cases hperformed with
  | closed => exact h
  | refused => exact h
  | unrecorded hlog hchange hrecord =>
    rw [hd _ hchange, OpenLog.record_nil] at hrecord
    cases hrecord
  | recorded hlog hchange hrecord =>
    rw [hd _ hchange, OpenLog.record_nil] at hrecord
    cases hrecord
    exact h.of_log hlog.symm

/-- Rewriting the log succeeds, and it adds up to the same state. -/
theorem Records.compact (h : w.Records state b m) :
    ∃ b' m', b.compact m = (.ok (), b', m') ∧ w.Records state b' m' := by
  obtain ⟨⟨log, entries, hlog, hholds, hkeeps, hlast⟩, hstate⟩ := h
  obtain ⟨⟨held, after⟩, hcompact, hafter⟩ := w.compact (w.finds_of_holds hholds) hlast
  refine ⟨{ b with log := some ⟨log.journal.compacted, held⟩ }, after, ?_,
    ⟨_, _, rfl, hafter, Journal.keeps_snapshot hkeeps.closed, ?_⟩, ?_⟩
  · simp only [Broker.compact, hlog, OpenLog.compact, hcompact]
    rfl
  · exact Nat.max_lt.2 ⟨hlast, by decide⟩
  · rintro _ ⟨⟩
    exact hstate log hlog

/-- A broker that is shut down leaves a log behind that adds up to the same state. -/
theorem Records.shutdown (h : w.Records state b m) :
    ∃ entries after, b.shutdown m = (.ok (), { b with log := none }, after) ∧
      w.Offers after entries ∧ DurableState.ofEntries entries = state := by
  obtain ⟨⟨log, entries, hlog, hholds, hkeeps, -⟩, hstate⟩ := h
  refine ⟨entries, _, ?_, w.detach hholds, hkeeps.state_eq.trans (hstate log hlog)⟩
  simp only [Broker.shutdown, hlog, OpenLog.sync, w.sync hholds]
  rfl

end Faultless

/-! ## §3. Files refuse nothing -/

namespace JournalDirectory

variable {path : String} {b : Broker JournalFile} {m : JournalDirectory} {state : DurableState}

/-- A change is always recorded in a file that is held. -/
theorem record_ok {f : JournalFile} {entries : List JournalEntry}
    (h : (faultless path).Holds (f, m) entries) (j : Journal) (ops : List DurableOp) :
    (j.record ops (f, m)).1 = .ok () := by
  cases ops with
  | nil => rfl
  | cons op ops =>
    obtain ⟨⟨-, -, number, hholds⟩, -⟩ := h
    obtain ⟨f', after, happend, -⟩ := hholds.append { seq := j.lastSeq + 1, ops := op :: ops }
    have hstore : LogStore.append { seq := j.lastSeq + 1, ops := op :: ops } (f, m) =
        (.ok (), f', { m with disk := after }) := by
      show m.outcome (f.append _ m.disk) = _
      rw [happend]
      rfl
    simp only [Journal.record, hstore]

/-- So an operation that fails was not even to be recorded. -/
theorem records_of_failed {α : Type} (h : (faultless path).Records state b m) {d : Decision α}
    {e : Refusal} (hfailed : (b.perform d m).1 = .error e) :
    (faultless path).Records state (b.perform d m).2.1 (b.perform d m).2.2 := by
  have hperformed := Broker.performed d b m
  generalize b.perform d m = outcome at hperformed hfailed ⊢
  cases hperformed with
  | closed => exact h
  | refused => exact h
  | @unrecorded log _ change _ _ hlog _ hrecord =>
    obtain ⟨log', entries, hlog', hholds, -⟩ := h.inStep
    obtain rfl := Option.some.inj (hlog.symm.trans hlog')
    have hok := record_ok hholds log.journal change.ops
    have hresult : (log.journal.record change.ops (log.handle, m)).1 = .error _ :=
      congrArg Prod.fst hrecord
    cases hok.symm.trans hresult
  | recorded => cases hfailed

/-- A broker on a directory is always shut down. -/
theorem shutdown_ok (b : Broker JournalFile) (m : JournalDirectory) :
    (b.shutdown m).1 = .ok () := by
  unfold Broker.shutdown
  split
  next => rfl
  next => rfl

/-- A log whose lock somebody else holds is not opened, and nothing changes but that the lock file
exists. -/
theorem logs_of_locked {made : Disk} {number id : Nat} {file : DiskFile}
    {text : Option (List Char)} {entries : List JournalEntry}
    (hmake : m.disk.makeDirectories m.path = (.ok (), made)) (hhosts : made.Hosts m.path number)
    (hbytes : made.logBytes number = text.map JournalFile.encode)
    (hparse : Lines.parse (text.getD []) = .ok entries)
    (hfound : made.fileUnder number JournalLock.fileName = some (id, file))
    (hlocked : file.locked = true) (settings : BrokerSettings) (nonce : UInt64)
    (mailboxes : Mailboxes) :
    ∃ e after, Broker.openOn settings nonce mailboxes m = (.error e, after) ∧
      after.disk.Logs m.path (.ofEntries entries) := by
  obtain ⟨id', opened, hopen, hopened⟩ := hhosts.openFile JournalFile.lockName_mem_names
  have hheld : opened.isLocked id' = true := by
    obtain ⟨-, hfile⟩ := Disk.fileUnder_eq_some.1 hopened.found_eq
    rw [Disk.isLocked, hfile, hfound]
    exact hlocked
  have hacquire : JournalLock.acquire m.claimant m.path (JournalFile.pathIn m.path) made =
      (.error _, opened) := JournalLock.acquire_of_locked hopen hheld
  generalize JournalLock.refusal _ _ _ _ = e at hacquire
  have hattach : Medium.attach m = (.error (.lock e), { m with disk := opened }) := by
    show m.acquire = _
    simp only [JournalDirectory.acquire, JournalFile.acquire, hmake, hacquire]
  refine ⟨.journal (.lock e), { m with disk := opened }, ?_, ?_⟩
  · simp only [Broker.openOn, OpenLog.openOn, hattach]
  · exact Disk.logs_of_text hopened.hosts.makeDirectories hopened.hosts
      ((hopened.logBytes_eq JournalFile.fileName_ne_lockName.symm).trans hbytes) hparse

end JournalDirectory

/-! ## §4. Requests -/

namespace LiveState

variable {s : LiveState} {conn : ConnectionId} {passive : Bool}

/-- To ask for an exchange or to declare one that does not last has nothing to be recorded. -/
theorem declareExchange_no_ops {d : ExchangeDef} {change : Change Unit}
    (hquiet : (passive || !d.durable) = true)
    (h : declareExchange d passive s = .ok change) : change.ops = [] := by
  cases passive with
  | true =>
    obtain ⟨-, -, h⟩ := ok_of_bind h
    simp only [↓reduceIte] at h
    split at h
    next =>
      cases h
      rfl
    next =>
      split at h
      next =>
        cases h
        rfl
      next => cases h
  | false =>
    have hdurable : d.durable = false := by simpa using hquiet
    obtain rfl | ⟨-, rfl⟩ := declareExchange_ok h
    · rfl
    · exact if_neg (by simp [hdurable])

theorem declareNamedQueue_no_ops {d : QueueDef} {change : Change QueueDeclared}
    (hquiet : (passive || !d.persistent) = true)
    (h : declareNamedQueue conn d passive s = .ok change) : change.ops = [] := by
  obtain rfl | ⟨hnew, rfl⟩ := declareNamedQueue_ok h
  · rfl
  · cases hpersistent : d.persistent with
    | false => rfl
    | true =>
      rw [hpersistent, Bool.not_true, Bool.or_false] at hquiet
      subst hquiet
      rw [declareNamedQueue, hnew] at h
      cases h

/-- Nor has to ask for a queue or to declare one that does not last. -/
theorem declareQueue_no_ops {d : QueueDef} {change : Change QueueDeclared}
    (hquiet : (passive || !d.persistent) = true)
    (h : declareQueue conn d passive s = .ok change) : change.ops = [] := by
  unfold declareQueue at h
  split at h
  next =>
    split at h
    next => cases h
    next =>
      exact declareNamedQueue_no_ops (d := { d with name := s.drawName.1 }) (s := s.drawName.2)
        hquiet h
  next =>
    obtain ⟨-, -, h⟩ := ok_of_bind h
    split at h
    next => cases h
    next => exact declareNamedQueue_no_ops hquiet h

theorem route_no_ops {matcher : Matcher} {exchange key : String} {change : Change NameSet}
    (h : route matcher exchange key s = .ok change) : change.ops = [] := by
  obtain ⟨x, -, h⟩ := ok_of_bind h
  injection h with h
  rw [← h]
  rfl

end LiveState

namespace Cli

/-- Whether a request asks for nothing durable: it only shows something, or declares something that
does not last. -/
def Request.isQuiet : Request → Bool
  | .status | .route .. | .compact => true
  | .declareExchange d passive => passive || !d.durable
  | .declareQueue _ durable _ passive => passive || !durable
  | .deleteExchange .. | .deleteQueue .. | .bind _ | .unbind _ => false

section

variable {path : String} {b : Broker JournalFile} {m : JournalDirectory} {state : DurableState}

/-- An operation that records nothing or fails, told. -/
theorem records_told {α : Type} (h : (JournalDirectory.faultless path).Records state b m)
    (s : Surroundings) {d : Decision α} (tell : Broker JournalFile → α → List Line)
    (hquiet : (∀ change, d b.live = .ok change → change.ops = []) ∨
      (told s (b.perform d m) tell).1.exitCode ≠ 0) :
    (JournalDirectory.faultless path).Records state (told s (b.perform d m) tell).2.1
      (told s (b.perform d m) tell).2.2 := by
  have hafter : (told s (b.perform d m) tell).2 = (b.perform d m).2 := by
    unfold told
    split
    next heq => rw [heq]
    next heq => rw [heq]
  rw [hafter]
  rcases hquiet with hops | hfailed
  · exact h.perform_of_no_ops hops
  · cases hresult : (b.perform d m).1 with
    | error e => exact JournalDirectory.records_of_failed h hresult
    | ok answer =>
      have heq := Prod.ext (y := (_, _)) hresult rfl
      rw [heq] at hfailed
      exact absurd rfl hfailed

/-- A request that asks for nothing durable, and one that fails, leave the journal knowing the same
state. -/
theorem records_carryOut (h : (JournalDirectory.faultless path).Records state b m)
    (directory : String) (s : Surroundings) (inv : Invocation)
    (hquiet : inv.request.isQuiet = true ∨ (carryOut directory s inv b m).1.exitCode ≠ 0) :
    (JournalDirectory.faultless path).Records state (carryOut directory s inv b m).2.1
      (carryOut directory s inv b m).2.2 := by
  unfold carryOut at hquiet ⊢
  cases hrequest : inv.request with
  | status => exact h
  | declareExchange d passive =>
    rw [hrequest] at hquiet
    exact records_told h s _ (hquiet.imp_left fun hd _ => LiveState.declareExchange_no_ops hd)
  | deleteExchange name ifUnused =>
    rw [hrequest] at hquiet
    exact records_told h s _ (hquiet.imp_left nofun)
  | declareQueue name durable autoDelete passive =>
    rw [hrequest] at hquiet
    refine records_told h s _ (hquiet.imp_left fun hd _ => LiveState.declareQueue_no_ops ?_)
    simpa [Request.isQuiet, QueueDef.persistent] using hd
  | deleteQueue name ifUnused ifEmpty =>
    rw [hrequest] at hquiet
    exact records_told h s _ (hquiet.imp_left nofun)
  | bind binding =>
    rw [hrequest] at hquiet
    exact records_told h s _ (hquiet.imp_left nofun)
  | unbind binding =>
    rw [hrequest] at hquiet
    exact records_told h s _ (hquiet.imp_left nofun)
  | route exchange routingKey =>
    exact records_told h s _ (Or.inl fun _ => LiveState.route_no_ops)
  | compact =>
    obtain ⟨b', m', hcompact, hafter⟩ := h.compact
    simp only [hcompact]
    exact hafter

end

/-! ## §5. Runs -/

/-- A run on a log that can be opened. -/
theorem logs_runOn {path : String} {m : JournalDirectory} {entries : List JournalEntry}
    (hoffers : (JournalDirectory.faultless path).Offers m entries)
    (hseq : ∀ e ∈ entries, e.seq < Record.seqBound) (directory : String) (s : Surroundings)
    (compactAfter : Nat) (inv : Invocation)
    (hquiet : inv.request.isQuiet = true ∨
      (runOn directory s compactAfter inv m).1.exitCode ≠ 0) :
    (runOn directory s compactAfter inv m).2.disk.Logs path (.ofEntries entries) := by
  obtain ⟨b, opened, hopen, hrecords⟩ :=
    Faultless.records_openOn hoffers hseq { compactAfter } s.nonce .empty
  have hshut := JournalDirectory.shutdown_ok (carryOut directory s inv b opened).2.1
    (carryOut directory s inv b opened).2.2
  have heq : runOn directory s compactAfter inv m =
      ((carryOut directory s inv b opened).1, ((carryOut directory s inv b opened).2.1.shutdown
        (carryOut directory s inv b opened).2.2).2.2) := by
    unfold runOn
    simp only [hopen]
    rw [Prod.ext (y := (_, _)) hshut rfl]
  rw [heq] at hquiet ⊢
  obtain ⟨entries', after, hshutdown, hafter, hstate⟩ :=
    (records_carryOut hrecords directory s inv hquiet).shutdown
  rw [hshutdown, ← hstate]
  exact JournalDirectory.logs_of_offers hafter

/-- The directory that a run works on. -/
def Invocation.mediumIn (inv : Invocation) (s : Surroundings) (d : Disk) : JournalDirectory where
  disk := d
  path := inv.directoryIn s.env
  claimant := s.claimant

theorem run_eq {s : Surroundings} {args : List String} {inv : Invocation} {c : Configuration}
    (harguments : Invocation.ofArguments args = .ok inv)
    (hconfiguration : Configuration.ofEnvironment s.env = .ok c) (d : Disk) :
    let outcome := runOn (inv.directoryIn s.env) s c.compactAfter inv (inv.mediumIn s d)
    (run s args d).1 = outcome.1 ∧ (run s args d).2 = outcome.2.disk := by
  simp only [run, harguments, hconfiguration, Invocation.mediumIn, and_self]

/-- Every run of the program, with no failure of the disk, in a directory whose log is read.  If it
is asked for nothing durable, or if it fails for whatever reason, then the log is read afterwards
too, and adds up to the same state. -/
theorem run_keeps_state (s : Surroundings) {args : List String} {d : Disk} {path : String}
    {state : DurableState} (hpath : ∀ other, directoryOf? s.env args = some other → other = path)
    (hlogs : d.Logs path state)
    (hquiet : (∃ inv, Invocation.ofArguments args = .ok inv ∧ inv.request.isQuiet = true) ∨
      (run s args d).1.exitCode ≠ 0) :
    (run s args d).2.Logs path state := by
  cases harguments : Invocation.ofArguments args with
  | error stop =>
    rw [run_of_misuse harguments]
    exact hlogs
  | ok inv =>
    cases hconfiguration : Configuration.ofEnvironment s.env with
    | error e =>
      simp only [run, harguments, hconfiguration]
      exact hlogs
    | ok c =>
      have hdirectory : directoryOf? s.env args = some (inv.directoryIn s.env) := by
        simp only [directoryOf?, harguments, hconfiguration]
      obtain rfl := hpath _ hdirectory
      obtain ⟨hresult, hdisk⟩ := run_eq harguments hconfiguration d
      rw [hresult] at hquiet
      rw [hdisk]
      replace hquiet : inv.request.isQuiet = true ∨ (runOn (inv.directoryIn s.env) s
          c.compactAfter inv (inv.mediumIn s d)).1.exitCode ≠ 0 := by
        refine hquiet.imp_left ?_
        rintro ⟨_, hsame, hquiet⟩
        obtain rfl := Except.ok.inj (harguments.symm.trans hsame)
        exact hquiet
      obtain ⟨made, number, text, entries, hmake, hhosts, hbytes, hparse, rfl⟩ := hlogs.text
      by_cases hfree : ∀ id file, made.fileUnder number JournalLock.fileName = some (id, file) →
          file.locked = false
      · exact logs_runOn ⟨rfl, text, ⟨made, number, hmake, hhosts, hbytes, hfree⟩, hparse⟩
          (Lines.seq_lt_of_parse hparse) _ s _ inv hquiet
      · push Not at hfree
        obtain ⟨id, file, hfound, hlocked⟩ := hfree
        obtain ⟨e, after, hopen, hafter⟩ := JournalDirectory.logs_of_locked (m := inv.mediumIn s d)
          hmake hhosts hbytes hparse hfound (by simpa using hlocked)
          { compactAfter := c.compactAfter } s.nonce .empty
        simp only [runOn, hopen]
        exact hafter

/-- Surroundings in which no variable is set. -/
def Surroundings.unset : Surroundings where
  env := fun _ => none
  claimant := { pid := 1, now := 0 }
  nonce := 1
  elapsed := 0

theorem run_keeps_state_of_torn :
    let args := ["--data-dir", "/", "status"]
    let d := LogSession.tornDirectory.disk
    (∀ other, directoryOf? Surroundings.unset.env args = some other → other = "/") ∧
    d.Logs "/" (.ofEntries [JournalFile.accented]) ∧
    (∃ inv, Invocation.ofArguments args = .ok inv ∧ inv.request.isQuiet = true) ∧
    (run Surroundings.unset args d).2.Logs "/" (.ofEntries [JournalFile.accented]) := by
  intro args d
  have hpath : ∀ other, directoryOf? Surroundings.unset.env args = some other → other = "/" := by
    intro other hother
    have hdirectory : directoryOf? Surroundings.unset.env args = some "/" := by decide +kernel
    exact Option.some.inj (hother.symm.trans hdirectory)
  have hlogs : d.Logs "/" (.ofEntries [JournalFile.accented]) := by
    have hoffers := JournalFile.offers_diskOf LogSession.tornText
    exact Disk.logs_of_text hoffers.hosts.makeDirectories hoffers.hosts hoffers.logBytes_eq
      (by decide +kernel)
  have hquiet : ∃ inv, Invocation.ofArguments args = .ok inv ∧ inv.request.isQuiet = true :=
    ⟨{ request := .status, dataDirectory := some "/", verbose := false, output := .text },
      by rfl, rfl⟩
  exact ⟨hpath, hlogs, hquiet, run_keeps_state Surroundings.unset hpath hlogs (Or.inl hquiet)⟩

end Cli

end BrokerTopology
