/-
  BrokerTopology.Cli.Program — one run of the program.

  Every run opens the broker on its directory, carries one request out
  and shuts the broker down, whatever came of the request.  It is a
  function of the arguments, of what surrounds the run and of the disk.

  Main statements:
    * `run_of_misuse` — a command line that is wrong touches nothing.
-/
import BrokerTopology.Broker
import BrokerTopology.Cli.Report
import BrokerTopology.Configuration

namespace BrokerTopology

namespace Cli

/-- What a run leaves behind for the one who started it. -/
structure RunResult where
  exitCode : Nat := 0
  output : String := ""
  errors : String := ""
deriving DecidableEq, Repr

/-- What a run is given beside its arguments. -/
structure Surroundings where
  env : Environment
  claimant : Claimant
  /-- The nonce for the names that the broker makes up. -/
  nonce : UInt64
  /-- How long the rewriting of a log is said to take, in milliseconds. -/
  elapsed : Nat
  terminals : Terminals := {}

namespace Surroundings

/-- A run that did what it was asked for. -/
def success (s : Surroundings) (report : List Line) : RunResult :=
  { output := unlines (reportsColored s.env s.terminals.output) report }

/-- What a run that failed says. -/
def errorText (s : Surroundings) (report : List Line) : String :=
  unlines (reportsColored s.env s.terminals.errors) report

/-- A run that failed. -/
def failure (s : Surroundings) (report : List Line) : RunResult :=
  { exitCode := 1, errors := s.errorText report }

end Surroundings

/-! ## §1. Requests -/

section

variable {medium handle : Type} [Medium medium handle]

/-- Everything in a broker's memory that is to be shown. -/
def overview (directory : String) (verbose : Bool) (b : Broker handle) : Overview where
  directory := directory
  exchanges := b.live.topology.registry.exchangeList.filter fun x => verbose || !x.builtin
  queues := b.live.topology.registry.queueList
  bindings := b.live.topology.bindings.toList

/-- How many exchanges and queues outlive a broker, the built-in ones left out. -/
def durableCounts (b : Broker handle) : Nat × Nat :=
  let registry := b.live.topology.registry
  ((registry.exchangeList.filter fun x => x.definition.durable && !x.builtin).length,
    (registry.queueList.filter fun q => q.definition.persistent).length)

/-- The outcome of an operation, told. -/
def told {α : Type} (s : Surroundings) (r : Outcome (Broker handle × medium) Refusal α)
    (tell : Broker handle → α → List Line) : RunResult × Broker handle × medium :=
  match r with
  | (.error e, b, m) => (s.failure (refusalReport [] e), b, m)
  | (.ok answer, b, m) => (s.success (tell b answer), b, m)

/-- Carry a request out. -/
def carryOut (directory : String) (s : Surroundings) (inv : Invocation) (b : Broker handle)
    (m : medium) : RunResult × Broker handle × medium :=
  let format := inv.output
  match inv.request with
  | .status => (s.success ((overview directory inv.verbose b).report format), b, m)
  | .declareExchange d passive =>
    told s (b.perform (LiveState.declareExchange d passive) m) fun _ _ =>
      exchangeDeclared d passive format
  | .deleteExchange name ifUnused =>
    told s (b.perform (LiveState.deleteExchange name ifUnused) m) fun _ _ =>
      exchangeDeleted name format
  | .declareQueue name durable autoDelete passive =>
    let d : QueueDef := { name, durable, exclusive := false, autoDelete }
    told s (b.perform (LiveState.declareQueue .admin d passive) m) fun _ declared =>
      queueDeclared declared format
  | .deleteQueue name ifUnused ifEmpty =>
    told s (b.perform (LiveState.deleteQueue .admin name ifUnused ifEmpty) m) fun _ messages =>
      queueDeleted name messages format
  | .bind binding =>
    told s (b.perform (LiveState.bind .admin binding) m) fun _ _ =>
      bindingChanged "Bound" binding false format
  | .unbind binding =>
    told s (b.perform (LiveState.unbind .admin binding) m) fun b _ =>
      bindingChanged "Unbound" binding
        (!b.live.topology.registry.hasExchange binding.exchange) format
  | .route exchange routingKey =>
    told s (b.perform (LiveState.route b.settings.matcher exchange routingKey) m) fun _ queues =>
      routed exchange routingKey queues.toList format
  | .compact =>
    match b.compact m with
    | (.error e, b, m) => (s.failure (refusalReport ["Compaction failed"] e), b, m)
    | (.ok (), b, m) =>
      let (exchanges, queues) := durableCounts b
      (s.success (compacted exchanges queues s.elapsed format), b, m)

/-- Open a broker, carry a request out, and shut the broker down. -/
def runOn (directory : String) (s : Surroundings) (compactAfter : Nat) (inv : Invocation)
    (m : medium) : RunResult × medium :=
  match Broker.openOn { compactAfter } s.nonce .empty m with
  | (.error e, m) => (s.failure (refusalReport ["Failed to open broker"] e), m)
  | (.ok b, m) =>
    let (result, b, m) := carryOut directory s inv b m
    match b.shutdown m with
    | (.ok (), _, m) => (result, m)
    | (.error e, _, m) =>
      -- an earlier failure is the one to report
      if result.exitCode = 0 then
        let errors := s.errorText (refusalReport ["Failed to shut down broker"] e)
        ({ result with exitCode := 1, errors }, m)
      else (result, m)

end

/-! ## §2. Runs -/

/-- What ends a command line early, told. -/
def stopped (s : Surroundings) : Stop → RunResult
  | .help spec path =>
    let colored := helpColored s.env s.terminals.output
    { output := unlines colored (grammar.helpLines spec path) }
  | .version => { output := unlines false [.ofText (Release.program ++ " " ++ Release.version)] }
  | .misuse m => { exitCode := 2, errors := unlines false [.ofText ("error: " ++ m.message)] }

/-- The directory of the log that an invocation names, or else the environment. -/
def Invocation.directoryIn (inv : Invocation) (env : Environment) : String :=
  inv.dataDirectory.getD (Configuration.dataDirectory env)

/-- The directory of the log that a run opens, if it comes that far. -/
def directoryOf? (env : Environment) (args : List String) : Option String :=
  match Invocation.ofArguments args, Configuration.ofEnvironment env with
  | .ok inv, .ok _ => some (inv.directoryIn env)
  | _, _ => none

/-- Run the program on a disk. -/
def run (s : Surroundings) (args : List String) (d : Disk) : RunResult × Disk :=
  match Invocation.ofArguments args with
  | .error stop => (stopped s stop, d)
  | .ok inv =>
    match Configuration.ofEnvironment s.env with
    | .error e => (s.failure (settingReport "Invalid broker configuration" e.message), d)
    | .ok c =>
      let path := inv.directoryIn s.env
      let m : JournalDirectory := { disk := d, path, claimant := s.claimant }
      let (result, m) := runOn path s c.compactAfter inv m
      (result, m.disk)

theorem run_of_misuse {args : List String} {stop : Stop}
    (h : Invocation.ofArguments args = .error stop) (s : Surroundings) (d : Disk) :
    run s args d = (stopped s stop, d) := by
  simp [run, h]

end Cli

end BrokerTopology
