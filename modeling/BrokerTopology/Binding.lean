/-
  BrokerTopology.Binding — a queue bound to an exchange under a routing
  key.

  Bindings are ordered by queue, then exchange, then key.  Among the
  bindings of one queue that is the order by exchange and key, among
  those of one exchange the order by queue and key.

  Main statements:
    * the order is lawful, so that sets of bindings are extensional.
-/
import BrokerTopology.Name

namespace BrokerTopology

/-- A queue, an exchange and the routing key that joins them. -/
structure Binding where
  queue : String
  exchange : String
  routingKey : String
deriving DecidableEq, Repr

namespace Binding

/-- How a binding is written in messages. -/
def label (b : Binding) : String :=
  "queue '" ++ b.queue ++ "' -> exchange '" ++ b.exchange ++ "' (key '" ++ b.routingKey ++ "')"

/-- What is said of a binding that is not there. -/
def absentMessage (b : Binding) : String := "no binding " ++ b.label

/-- The order of bindings: by queue, then by exchange, then by key. -/
def order : Binding → Binding → Ordering :=
  compareLex (compareOn queue) (compareLex (compareOn exchange) (compareOn routingKey))

instance : Ord Binding := ⟨order⟩

instance : Std.TransCmp order :=
  inferInstanceAs (Std.TransCmp (compareLex _ (compareLex _ _)))

instance : Std.TransOrd Binding := inferInstanceAs (Std.TransCmp order)

theorem eq_of_order {a b : Binding} (h : order a b = .eq) : a = b := by
  cases a
  cases b
  simp_all [order, compareLex, compareOn, Ordering.then_eq_eq]

instance : Std.LawfulEqOrd Binding where
  eq_of_compare h := eq_of_order h
  compare_self := Std.ReflCmp.compare_self

end Binding

/-- A finite set of bindings, listed in their order. -/
abbrev BindingSet := Std.ExtTreeSet Binding compare

end BrokerTopology
