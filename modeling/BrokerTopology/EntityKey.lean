/-
  BrokerTopology.EntityKey — the name of an exchange or of a queue.

  An exchange and a queue may share a name, so what is removed or held
  together is listed by key.  Exchanges come before queues, and within
  a kind the names are in order.

  Main statements:
    * the order is lawful, so that sets of keys are extensional.
-/
import BrokerTopology.Name

namespace BrokerTopology

/-- Names one exchange or one queue. -/
inductive EntityKey where
  | exchange (name : String)
  | queue (name : String)
deriving DecidableEq, Repr

namespace EntityKey

/-- Exchanges come first. -/
def rank : EntityKey → Nat
  | exchange _ => 0
  | queue _ => 1

/-- The name that the key carries. -/
def name : EntityKey → String
  | exchange n => n
  | queue n => n

/-- How an entity is written in messages. -/
def label : EntityKey → String
  | exchange n => "exchange '" ++ n ++ "'"
  | queue n => "queue '" ++ n ++ "'"

/-- The order of keys: by rank, then by name. -/
def order : EntityKey → EntityKey → Ordering :=
  compareLex (compareOn rank) (compareOn name)

instance : Ord EntityKey := ⟨order⟩

instance : Std.TransCmp order := inferInstanceAs (Std.TransCmp (compareLex _ _))

instance : Std.TransOrd EntityKey := inferInstanceAs (Std.TransCmp order)

theorem eq_of_order {a b : EntityKey} (h : order a b = .eq) : a = b := by
  cases a <;> cases b <;>
    simp_all [order, compareLex, compareOn, rank, name, Ordering.then_eq_eq]

instance : Std.LawfulEqOrd EntityKey where
  eq_of_compare h := eq_of_order h
  compare_self := Std.ReflCmp.compare_self

end EntityKey

/-- A finite set of keys, listed in their order. -/
abbrev KeySet := Std.ExtTreeSet EntityKey compare

end BrokerTopology
