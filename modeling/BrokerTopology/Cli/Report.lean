/-
  BrokerTopology.Cli.Report — what the program prints.

  Text comes in lines that start with a mark: a tick for what was done, a
  bullet for what is so, an arrow for where a message goes, a cross for
  what went wrong.  Marks and what went wrong have colors of their own,
  and what is counted is dim.  The other format is one JSON document in
  its long form.

  An error is told with the errors underneath it, the outermost first,
  and with the reply code if the broker refused.
-/
import BrokerTopology.Cli.Invocation
import BrokerTopology.Declaration
import BrokerTopology.Json.Writer
import BrokerTopology.Record

namespace BrokerTopology

namespace Cli

/-! ## §1. Lines -/

/-- A message after its mark. -/
def markedLine (mark : Span) (message : String) : Line := [mark, { text := " " ++ message }]

/-- Something was done. -/
def successLine (message : String) : Line := markedLine { text := "✓", look := .green } message

/-- Something went wrong. -/
def errorLine (message : String) : Line :=
  [{ text := "✗", look := .red }, { text := " " }, { text := message, look := .red }]

/-- Something is so. -/
def infoLine (message : String) : Line := markedLine { text := "•", look := .blue } message

/-- An item of a list. -/
def itemLine (text : String) : Line := .ofText ("  • " ++ text)

/-- A number and what it counts. -/
def statLine (label value : String) : Line :=
  [{ text := "  " }, { text := label, look := .dim }, { text := ": " ++ value }]

/-- The flags that are set, or a dash. -/
def flagsText (flags : List (String × Bool)) : String :=
  match (flags.filter Prod.snd).map Prod.fst with
  | [] => "-"
  | set => ", ".intercalate set

/-- The name of an exchange, the default one by a description. -/
def displayName (name : String) : String :=
  if name.isEmpty then "(default)" else name

/-- A JSON document in its long form, which ends its own lines but the last. -/
def document (members : List (String × Json)) : List Line := [.ofText (Json.record members).long]

/-! ## §2. Answers -/

/-- An exchange was declared, or is there. -/
def exchangeDeclared (d : ExchangeDef) (passive : Bool) : OutputFormat → List Line
  | .json =>
    document [("auto_delete", .bool d.autoDelete), ("durable", .bool d.durable),
      ("exchange", .str d.name), ("type", .str d.kind.name)]
  | .text =>
    let what := if passive then "exists" else "declared (" ++ d.kind.name ++ ")"
    [successLine ("Exchange '" ++ d.name ++ "' " ++ what)]

/-- An exchange was deleted. -/
def exchangeDeleted (name : String) : OutputFormat → List Line
  | .json => document [("deleted", .bool true), ("exchange", .str name)]
  | .text => [successLine ("Exchange '" ++ name ++ "' deleted")]

/-- A queue was declared, or is there. -/
def queueDeclared (d : QueueDeclared) : OutputFormat → List Line
  | .json =>
    document [("queue", .str d.queue), ("message_count", .nat d.messages),
      ("consumer_count", .nat d.consumers)]
  | .text =>
    [successLine ("Queue '" ++ d.queue ++ "' declared"),
      statLine "Messages" (toString d.messages), statLine "Consumers" (toString d.consumers)]

/-- A queue was deleted, and so many messages with it. -/
def queueDeleted (name : String) (messages : Nat) : OutputFormat → List Line
  | .json => document [("message_count", .nat messages), ("queue", .str name)]
  | .text =>
    [successLine ("Queue '" ++ name ++ "' deleted"),
      statLine "Messages dropped" (toString messages)]

/-- A queue was bound or unbound, and perhaps an exchange went with its last binding. -/
def bindingChanged (verb : String) (b : Binding) (exchangeGone : Bool) : OutputFormat → List Line
  | .json => document (Record.bindingMembers b)
  | .text =>
    successLine (verb ++ " " ++ b.label) ::
      if exchangeGone then [successLine ("Exchange '" ++ b.exchange ++ "' auto-deleted")] else []

/-- Where a message would go. -/
def routed (exchange routingKey : String) (queues : List String) : OutputFormat → List Line
  | .json =>
    document [("exchange", .str exchange), ("queues", .array (queues.map .str)),
      ("routing_key", .str routingKey)]
  | .text =>
    if queues.isEmpty then
      [infoLine
        ("No queue would receive '" ++ routingKey ++ "' on " ++ displayName exchange)]
    else queues.map fun queue => .ofText ("→ " ++ queue)

/-- The log was rewritten, in so many milliseconds. -/
def compacted (exchanges queues elapsed : Nat) : OutputFormat → List Line
  | .json =>
    document [("durable_exchanges", .nat exchanges), ("durable_queues", .nat queues),
      ("elapsed_ms", .nat elapsed)]
  | .text =>
    [successLine "Journal compacted", statLine "Durable exchanges" (toString exchanges),
      statLine "Durable queues" (toString queues),
      statLine "Duration" (toString elapsed ++ "ms")]

/-! ## §3. The whole topology -/

/-- What there is to show. -/
structure Overview where
  directory : String
  exchanges : List Exchange
  queues : List Queue
  bindings : List Binding

namespace Overview

/-- How an exchange is shown. -/
def exchangeLine (x : Exchange) : Line :=
  let d := x.definition
  itemLine (displayName d.name ++ " [" ++ d.kind.name ++ "] (" ++
    flagsText [("durable", d.durable), ("auto-delete", d.autoDelete), ("built-in", x.builtin)] ++
    ")")

/-- How a queue is shown. -/
def queueLine (q : Queue) : Line :=
  let d := q.definition
  itemLine (d.name ++ " (" ++
    flagsText [("durable", d.durable), ("auto-delete", d.autoDelete)] ++ ")")

/-- How a binding is shown. -/
def bindingLine (b : Binding) : Line :=
  itemLine (b.exchange ++ " → " ++ b.queue ++ " (key '" ++ b.routingKey ++ "')")

/-- A list under its heading, after an empty line; nothing if it is empty. -/
def listing (heading : String) (lines : List Line) : List Line :=
  if lines.isEmpty then [] else [] :: .ofText heading :: lines

/-- The lines that show everything. -/
def lines (o : Overview) : List Line :=
  [successLine ("Broker data at " ++ o.directory),
    statLine "Exchanges" (toString o.exchanges.length),
    statLine "Queues" (toString o.queues.length),
    statLine "Bindings" (toString o.bindings.length)] ++
  if o.exchanges.isEmpty && o.queues.isEmpty then
    [[], infoLine "No exchanges or queues declared."]
  else
    listing "Exchanges:" (o.exchanges.map exchangeLine) ++
      listing "Queues:" (o.queues.map queueLine) ++
      listing "Bindings:" (o.bindings.map bindingLine)

/-- How everything is shown. -/
def report (o : Overview) : OutputFormat → List Line
  | .json =>
    document [("data_dir", .str o.directory),
      ("exchanges", .array (o.exchanges.map Record.writeExchange)),
      ("queues", .array (o.queues.map Record.writeQueue)),
      ("bindings", .array (o.bindings.map Record.writeBinding))]
  | .text => o.lines

end Overview

/-! ## §4. Errors -/

/-- The wording of a failed log where it is shown in full. -/
def journalMessage : JournalError → String
  | .corrupt line => (JournalError.corrupt line).message IoError.message ++ ": not a valid record"
  | e => e.message IoError.message

/-- A refusal and the errors underneath it, the outermost first. -/
def refusalChain : Refusal → List String
  | .journal e =>
    ["journal error: " ++ journalMessage e, journalMessage e] ++
      (e.source?.map IoError.message).toList
  | r => [r.message IoError.message]

/-- What is said of a refusal that came up while something was attempted. -/
def refusalReport (attempts : List String) (r : Refusal) : List Line :=
  [errorLine (": ".intercalate (attempts ++ refusalChain r) ++
    " (reply code " ++ toString r.replyCode ++ ")")]

/-- What is said of a variable whose value makes no sense. -/
def settingReport (attempt message : String) : List Line :=
  [errorLine (attempt ++ ": " ++ message)]

end Cli

end BrokerTopology
