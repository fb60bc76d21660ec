/-
  BrokerTopology.Refusal — why an operation is refused.

  A refusal names its cause; its class, the reply code of the class and
  the wording are functions of the cause.  The three things that a
  binding can lack share one class and differ only in what is missing.
-/
import BrokerTopology.Binding
import BrokerTopology.EntityKey
import BrokerTopology.Log.Error
import BrokerTopology.Queue

namespace BrokerTopology

/-! ## §1. Causes -/

/-- How a declaration differs from the entity that is there. -/
inductive Mismatch where
  | kind (present requested : ExchangeKind)
  | durable (present : Bool)
  | exclusive (present : Bool)
  | autoDelete (present : Bool)
deriving DecidableEq, Repr

/-- What an operation names that is not there. -/
inductive Missing where
  | entity (key : EntityKey)
  | binding (b : Binding)
  | consumer (tag : String)
deriving DecidableEq, Repr

/-- What an operation asks for that does not hold. -/
inductive Precondition where
  | nameLength (bytes : Nat)
  | queueUnused (queue : String) (consumers : Nat)
  | queueEmpty (queue : String) (messages : Nat)
  | exchangeUnused (exchange : String) (bindings : Nat)
deriving DecidableEq, Repr

/-- What an operation touches that is the broker's own. -/
inductive Protected where
  | defaultExchange
  | reservedName (key : EntityKey)
  | builtinExchange (exchange : String)
deriving DecidableEq, Repr

/-- Why an operation is refused. -/
inductive Refusal where
  | conflict (key : EntityKey) (mismatch : Mismatch)
  | notFound (missing : Missing)
  | preconditionFailed (precondition : Precondition)
  | accessRefused (what : Protected)
  /-- The queue belongs to another connection. -/
  | resourceLocked (queue : String)
  /-- The broker is shut down. -/
  | closed
  /-- The log cannot record the operation. -/
  | journal (e : JournalError)
deriving DecidableEq, Repr

/-! ## §2. What is said of them -/

/-- How a flag differs. -/
def Mismatch.flagText (name : String) (present : Bool) : String :=
  name ++ " is " ++ toString present ++ ", requested " ++ toString (!present)

/-- What is said of a difference. -/
def Mismatch.message : Mismatch → String
  | kind present requested =>
    "type is '" ++ present.name ++ "', requested '" ++ requested.name ++ "'"
  | durable present => flagText "durable" present
  | exclusive present => flagText "exclusive" present
  | autoDelete present => flagText "auto_delete" present

/-- What is said of a missing thing. -/
def Missing.message : Missing → String
  | entity key => key.label
  | binding b => b.absentMessage
  | consumer tag => "consumer '" ++ tag ++ "'"

/-- What is said of a condition that does not hold. -/
def Precondition.message : Precondition → String
  | nameLength bytes =>
    "name is " ++ toString bytes ++ " bytes long, the limit is " ++ toString Name.maxBytes
  | queueUnused queue consumers =>
    "queue '" ++ queue ++ "' in use (" ++ toString consumers ++ " consumers)"
  | queueEmpty queue messages =>
    "queue '" ++ queue ++ "' not empty (" ++ toString messages ++ " messages)"
  | exchangeUnused exchange bindings =>
    "exchange '" ++ exchange ++ "' in use (" ++ toString bindings ++ " bindings)"

/-- What kind of entity a key names. -/
def EntityKey.noun : EntityKey → String
  | exchange _ => "exchange"
  | queue _ => "queue"

/-- What is said of a protected thing. -/
def Protected.message : Protected → String
  | defaultExchange => "operation not permitted on the default exchange"
  | reservedName key =>
    key.noun ++ " name '" ++ key.name ++ "' contains reserved prefix '" ++ Name.reservedStem ++ "'"
  | builtinExchange exchange =>
    (EntityKey.exchange exchange).label ++ " is built in and cannot be deleted"

/-- The classes of refusals. -/
inductive Refusal.Category where
  | conflict
  | notFound
  | preconditionFailed
  | accessRefused
  | resourceLocked
  | closed
  | internal
deriving DecidableEq, Repr

namespace Refusal

/-- The class of a refusal. -/
def category : Refusal → Category
  | conflict .. => .conflict
  | notFound _ => .notFound
  | preconditionFailed _ => .preconditionFailed
  | accessRefused _ => .accessRefused
  | resourceLocked _ => .resourceLocked
  | closed => .closed
  | journal _ => .internal

/-- The reply code of a class.  The protocol has none of its own for conflicts. -/
def Category.replyCode : Category → Nat
  | accessRefused => 403
  | notFound => 404
  | resourceLocked => 405
  | conflict | preconditionFailed => 406
  | closed => 320
  | internal => 541

/-- The reply code of a refusal. -/
def replyCode (r : Refusal) : Nat := r.category.replyCode

/-- What is said of a refusal. -/
def message (io : IoError → String) : Refusal → String
  | conflict key mismatch =>
    "inequivalent arguments for " ++ key.label ++ ": " ++ mismatch.message
  | notFound missing => "not found: " ++ missing.message
  | preconditionFailed precondition => "precondition failed: " ++ precondition.message
  | accessRefused what => "access refused: " ++ what.message
  | resourceLocked queue =>
    "resource locked: cannot obtain exclusive access to locked " ++ (EntityKey.queue queue).label
  | closed => "broker is shut down"
  | journal e => "journal error: " ++ e.message io

/-- A queue that is not there. -/
def noQueue (queue : String) : Refusal := .notFound (.entity (.queue queue))

/-- An exchange that is not there. -/
def noExchange (exchange : String) : Refusal := .notFound (.entity (.exchange exchange))

/-- Whether the refusal is that something is missing. -/
def isNotFound (r : Refusal) : Bool := r.category = .notFound

end Refusal

end BrokerTopology
