/-
  BrokerTopology.Name — entity names, and collections keyed by them.

  Exchanges and queues are known by name alone.  A name is any text;
  the broker keeps the empty name and every name that starts with
  `amq.` to itself, and refuses names of more than 255 bytes.

  Collections are the extensional ordered trees of `Std`: two of them
  are equal exactly when they hold the same things, and listing one
  gives the code point order of the names, which is also the order of
  their UTF-8 bytes.

  Main statements:
    * `reserved_append` — whatever follows the reserved stem, the
      name is reserved.
    * `builtin_iff` — the built-in exchanges are the listed ones.
-/
import Std.Data.ExtTreeMap
import Std.Data.ExtTreeSet

namespace BrokerTopology

/-! ## §1. Collections of names -/

/-- A finite map from names, listed in the order of the names. -/
abbrev NameMap (α : Type) := Std.ExtTreeMap String α compare

/-- A finite set of names, listed in their order. -/
abbrev NameSet := Std.ExtTreeSet String compare

/-! ## §2. Names the broker keeps to itself -/

namespace Name

/-- The default exchange: every queue is reachable through it by the queue's own name. -/
def defaultExchange : String := ""

/-- Names with this beginning belong to the broker. -/
def reservedStem : String := "amq."

/-- The beginning of the queue names that the broker makes up. -/
def generatedStem : String := "amq.gen-"

/-- The built-in exchanges, in the order of their names. -/
def builtins : List String := ["", "amq.direct", "amq.fanout", "amq.topic"]

/-- The longest permitted name, in bytes of UTF-8. -/
def maxBytes : Nat := 255

/-- Whether a name starts with the reserved stem. -/
def isReserved (name : String) : Bool :=
  reservedStem.toList.isPrefixOf name.toList

/-- Whether a name is that of a built-in exchange. -/
def isBuiltin (name : String) : Bool :=
  builtins.contains name

/-- Whether a name is too long to be declared. -/
def isOverlong (name : String) : Bool :=
  maxBytes < name.utf8ByteSize

theorem reserved_append (rest : String) : isReserved (reservedStem ++ rest) = true := by
  simp [isReserved]

theorem builtin_iff (name : String) : isBuiltin name = true ↔ name ∈ builtins := by
  simp [isBuiltin]

end Name

end BrokerTopology
