/-
  BrokerTopology.ReferenceCounts — how many consumers each queue has,
  and how many bindings each exchange.

  The counts drive auto-deletion.  They do not decide whether an entity
  exists, and a name without references has no entry, so a queue or
  exchange that is declared again starts from nothing.

  Main statements:
    * `consumersOf_consumerAdded` — one more consumer, on that queue only.
    * `bindingsOf_bindingAdded` — one more binding, on that exchange only.
    * `bindingsOf_bindingsRemoved` — so many fewer, down to zero.
-/
import BrokerTopology.Name

namespace BrokerTopology

/-! ## §1. A count for each name -/

/-- Counts by name; a count of zero has no entry. -/
abbrev NameCounts := NameMap Nat

namespace NameCounts

/-- The count of a name. -/
def countOf (counts : NameCounts) (name : String) : Nat :=
  counts[name]?.getD 0

/-- Set the count of a name. -/
def set (counts : NameCounts) (name : String) (n : Nat) : NameCounts :=
  if n = 0 then counts.erase name else counts.insert name n

@[simp] theorem countOf_set (counts : NameCounts) (name other : String) (n : Nat) :
    NameCounts.countOf (counts.set name n) other =
      if name = other then n else counts.countOf other := by
  by_cases hn : n = 0 <;> by_cases h : name = other <;>
    simp [NameCounts.countOf, set, hn, h, Std.ExtTreeMap.getElem?_erase,
      Std.ExtTreeMap.getElem?_insert]

end NameCounts

/-! ## §2. Consumers and bindings -/

/-- Consumers by queue and bindings by exchange. -/
structure ReferenceCounts where
  consumers : NameCounts := ∅
  bindings : NameCounts := ∅
deriving DecidableEq

namespace ReferenceCounts

/-- No references at all. -/
def empty : ReferenceCounts := {}

/-- The consumers of a queue. -/
def consumersOf (r : ReferenceCounts) (queue : String) : Nat :=
  r.consumers.countOf queue

/-- The bindings of an exchange. -/
def bindingsOf (r : ReferenceCounts) (exchange : String) : Nat :=
  r.bindings.countOf exchange

/-- One more consumer of a queue. -/
def consumerAdded (r : ReferenceCounts) (queue : String) : ReferenceCounts :=
  { r with consumers := r.consumers.set queue (r.consumersOf queue + 1) }

/-- One consumer fewer, with the number that remains; `none` if there was none to remove. -/
def consumerRemoved? (r : ReferenceCounts) (queue : String) : Option (Nat × ReferenceCounts) :=
  match r.consumersOf queue with
  | 0 => none
  | n + 1 => some (n, { r with consumers := r.consumers.set queue n })

/-- One more binding of an exchange. -/
def bindingAdded (r : ReferenceCounts) (exchange : String) : ReferenceCounts :=
  { r with bindings := r.bindings.set exchange (r.bindingsOf exchange + 1) }

/-- So many bindings of an exchange fewer, but never less than none. -/
def bindingsRemoved (r : ReferenceCounts) (exchange : String) (n : Nat) : ReferenceCounts :=
  { r with bindings := r.bindings.set exchange (r.bindingsOf exchange - n) }

/-- Drop the consumers of a queue that goes away. -/
def forgetQueue (r : ReferenceCounts) (queue : String) : ReferenceCounts :=
  { r with consumers := r.consumers.erase queue }

/-- Drop the bindings of an exchange that goes away. -/
def forgetExchange (r : ReferenceCounts) (exchange : String) : ReferenceCounts :=
  { r with bindings := r.bindings.erase exchange }

theorem consumersOf_consumerAdded (r : ReferenceCounts) (queue other : String) :
    (r.consumerAdded queue).consumersOf other =
      if queue = other then r.consumersOf queue + 1 else r.consumersOf other := by
  simp [consumerAdded, consumersOf]

theorem bindingsOf_bindingAdded (r : ReferenceCounts) (exchange other : String) :
    (r.bindingAdded exchange).bindingsOf other =
      if exchange = other then r.bindingsOf exchange + 1 else r.bindingsOf other := by
  simp [bindingAdded, bindingsOf]

theorem bindingsOf_bindingsRemoved (r : ReferenceCounts) (exchange other : String) (n : Nat) :
    (r.bindingsRemoved exchange n).bindingsOf other =
      if exchange = other then r.bindingsOf exchange - n else r.bindingsOf other := by
  simp [bindingsRemoved, bindingsOf]

end ReferenceCounts

end BrokerTopology
