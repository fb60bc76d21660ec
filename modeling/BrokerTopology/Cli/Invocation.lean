/-
  BrokerTopology.Cli.Invocation — what a command line asks the broker
  for.
-/
import BrokerTopology.Binding
import BrokerTopology.Cli.Grammar
import BrokerTopology.Exchange
import BrokerTopology.Release

namespace BrokerTopology

namespace Cli

/-! ## §1. Requests -/

/-- How answers are written. -/
inductive OutputFormat where
  | text
  | json
deriving DecidableEq, Repr

/-- The format of a name. -/
def OutputFormat.ofName? : String → Option OutputFormat
  | "text" => some text
  | "json" => some json
  | _ => none

/-- What the broker is asked for. -/
inductive Request where
  | status
  | declareExchange (d : ExchangeDef) (passive : Bool)
  | deleteExchange (name : String) (ifUnused : Bool)
  | declareQueue (name : String) (durable autoDelete passive : Bool)
  | deleteQueue (name : String) (ifUnused ifEmpty : Bool)
  | bind (b : Binding)
  | unbind (b : Binding)
  | route (exchange routingKey : String)
  | compact
deriving DecidableEq, Repr

/-- A request, and how and where it is to be carried out. -/
structure Invocation where
  request : Request
  /-- The directory of the log, if one is named. -/
  dataDirectory : Option String
  verbose : Bool
  output : OutputFormat
deriving DecidableEq, Repr

/-! ## §2. The grammar -/

/-- A flag without a letter. -/
def flag (name help : String) : OptionSpec := { name, help }

/-- The options of a declaration beside its kind. -/
def declarationFlags (loss entity : String) : List OptionSpec :=
  [flag "transient" "Do not survive restarts", flag "auto-delete" ("Delete once its last " ++ loss),
    flag "passive" ("Only check that the " ++ entity ++ " exists")]

/-- The option that names the kind of an exchange. -/
def kindOption : OptionSpec where
  name := "type"
  letter := some 't'
  value := some "KIND"
  accepts := fun text => (ExchangeKind.ofName? text).isSome
  help := "Exchange type: direct, fanout or topic [default: direct]"

/-- The arguments that name a binding. -/
def bindingArguments : List ArgumentSpec :=
  [{ name := "QUEUE" }, { name := "EXCHANGE" },
    { name := "ROUTING_KEY", required := false, help := "[default: \"\"]" }]

/-- The commands on exchanges. -/
def exchangeCommands : List CommandSpec :=
  [.leaf "declare" "Declare an exchange, or confirm an equivalent one exists"
      (kindOption :: declarationFlags "binding is removed" "exchange")
      [{ name := "NAME", help := "Exchange name" }],
    .leaf "delete" "Delete an exchange and its bindings"
      [flag "if-unused" "Refuse while bindings reference the exchange"]
      [{ name := "NAME", help := "Exchange name" }]]

/-- The commands on queues. -/
def queueCommands : List CommandSpec :=
  [.leaf "declare" "Declare a queue, or confirm an equivalent one exists"
      (declarationFlags "consumer leaves" "queue")
      [{ name := "NAME", required := false,
         help := "Queue name; omit to have the broker generate one [default: \"\"]" }],
    .leaf "delete" "Delete a queue and its bindings"
      [flag "if-unused" "Refuse while the queue has consumers",
        flag "if-empty" "Refuse while the queue holds messages"]
      [{ name := "NAME", help := "Queue name" }]]

/-- Every command. -/
def commands : List CommandSpec :=
  [.leaf "status" "Show exchanges, queues and bindings" [] [],
    .group "exchange" "Declare or delete exchanges" exchangeCommands,
    .group "queue" "Declare or delete queues" queueCommands,
    .leaf "bind" "Bind a queue to an exchange" [] bindingArguments,
    .leaf "unbind" "Remove a binding" [] bindingArguments,
    .leaf "route" "Show which queues a message would reach" []
      [{ name := "EXCHANGE" }, { name := "ROUTING_KEY" }],
    .leaf "compact" "Rewrite the journal to its minimal form" [] []]

/-- The options that may stand at every level. -/
def globalOptions : List OptionSpec :=
  [{ name := "data-dir", value := some "DATA_DIR", accepts := fun text => !text.isEmpty,
     help := "Data directory holding the journal" ++
       " (default: $WARREN_DATA_DIR or the platform data dir)" },
    { name := "verbose", letter := some 'v', help := "Enable verbose output" },
    { name := "output", letter := some 'o', value := some "OUTPUT",
      accepts := fun text => (OutputFormat.ofName? text).isSome,
      help := "Output format [default: text] [possible values: text, json]" }]

/-- The grammar of the program's command lines. -/
def grammar : Grammar where
  program := .group Release.program
    (Release.program ++ " - inspect and manage a broker's durable topology") commands
  everywhere := globalOptions

/-! ## §3. From words to requests -/

/-- The binding that arguments name. -/
def bindingOf (m : Matched) : Binding :=
  { queue := m.argument 0, exchange := m.argument 1, routingKey := m.argument 2 }

/-- The exchange that a declaration names. -/
def exchangeDefOf (m : Matched) : ExchangeDef :=
  { name := m.argument 0
    kind := ((m.value? "type").bind ExchangeKind.ofName?).getD .direct
    durable := !m.has "transient"
    autoDelete := m.has "auto-delete" }

/-- The request that a command line makes. -/
def Request.ofMatched? (m : Matched) : Option Request :=
  match m.path.drop 1 with
  | ["status"] => some .status
  | ["exchange", "declare"] => some (.declareExchange (exchangeDefOf m) (m.has "passive"))
  | ["exchange", "delete"] => some (.deleteExchange (m.argument 0) (m.has "if-unused"))
  | ["queue", "declare"] =>
    some (.declareQueue (m.argument 0) (!m.has "transient") (m.has "auto-delete")
      (m.has "passive"))
  | ["queue", "delete"] =>
    some (.deleteQueue (m.argument 0) (m.has "if-unused") (m.has "if-empty"))
  | ["bind"] => some (.bind (bindingOf m))
  | ["unbind"] => some (.unbind (bindingOf m))
  | ["route"] => some (.route (m.argument 0) (m.argument 1))
  | ["compact"] => some .compact
  | _ => none

/-- The invocation that arguments make. -/
def Invocation.ofArguments (args : List String) : Except Stop Invocation := do
  let m ← grammar.parse args
  match Request.ofMatched? m with
  | none => .error (.misuse .missingCommand)
  | some request =>
    .ok
      { request
        dataDirectory := m.value? "data-dir"
        verbose := m.has "verbose"
        output := ((m.value? "output").bind OutputFormat.ofName?).getD .text }

end Cli

end BrokerTopology
