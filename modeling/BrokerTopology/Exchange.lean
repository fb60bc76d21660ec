/-
  BrokerTopology.Exchange — exchanges: their kinds, the parameters
  they are declared with and the records the registry keeps.

  Four exchanges exist on every broker from its start: the default
  exchange and one for each kind.  They are durable, are never
  auto-deleted and cannot be deleted.

  Main statements:
    * `ExchangeKind.ofName?_name` / `ExchangeKind.name_of_ofName?` —
      a kind and its name determine each other.
    * `Exchange.builtins_names` — the built-in records carry the
      built-in names.
-/
import BrokerTopology.Name

namespace BrokerTopology

/-! ## §1. Kinds -/

/-- How an exchange chooses among its bindings. -/
inductive ExchangeKind where
  | direct
  | fanout
  | topic
deriving DecidableEq, Repr

namespace ExchangeKind

/-- The name of a kind, as it is written everywhere. -/
def name : ExchangeKind → String
  | direct => "direct"
  | fanout => "fanout"
  | topic => "topic"

/-- Every kind. -/
def all : List ExchangeKind := [direct, fanout, topic]

/-- The kind with a given name. -/
def ofName? (text : String) : Option ExchangeKind :=
  all.find? (fun kind => kind.name == text)

/-- What is reported of a text that names no kind. -/
def unknownMessage (text : String) : String :=
  "unknown exchange type '" ++ text ++ "'"

theorem ofName?_name (kind : ExchangeKind) : ofName? kind.name = some kind := by
  cases kind <;> decide

theorem name_of_ofName? {text : String} {kind : ExchangeKind} (h : ofName? text = some kind) :
    kind.name = text := by
  simpa using List.find?_some h

end ExchangeKind

/-! ## §2. Records -/

/-- Whether a record is in the registry or was handed back by a removal. -/
inductive EntityState where
  | active
  | deleted
deriving DecidableEq, Repr

/-- The name of a state, as it is written everywhere. -/
def EntityState.name : EntityState → String
  | active => "active"
  | deleted => "deleted"

/-- The parameters an exchange is declared with. -/
structure ExchangeDef where
  name : String
  kind : ExchangeKind
  durable : Bool
  autoDelete : Bool
deriving DecidableEq, Repr

/-- An exchange as the registry records it. -/
structure Exchange where
  definition : ExchangeDef
  /-- Present from the start and protected from deletion. -/
  builtin : Bool := false
  state : EntityState := .active
deriving DecidableEq, Repr

namespace Exchange

/-- The built-in exchange of a given name and kind. -/
def ofBuiltin (name : String) (kind : ExchangeKind) : Exchange where
  definition := { name, kind, durable := true, autoDelete := false }
  builtin := true

/-- The exchanges of a fresh broker. -/
def builtins : List Exchange :=
  [ofBuiltin "" .direct, ofBuiltin "amq.direct" .direct,
   ofBuiltin "amq.fanout" .fanout, ofBuiltin "amq.topic" .topic]

theorem builtins_names : builtins.map (fun x => x.definition.name) = Name.builtins := rfl

/-- Auto-deletion applies to exchanges declared so, never to a built-in one. -/
def isAutoDeleted (x : Exchange) : Bool :=
  x.definition.autoDelete && !x.builtin

end Exchange

end BrokerTopology
