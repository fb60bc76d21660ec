/-
  BrokerTopology.GeneratedName — queue names that the broker makes up.

  A generated name is the reserved stem, a nonce of sixteen hexadecimal
  digits and a counter.  The nonce differs from one broker to the next,
  so that names recovered from an earlier one are not met again; should
  a name be taken all the same, the next counter value is tried.  The
  counter never goes back, so no name is handed out twice.

  Main statements:
    * `draw_counter_lt` — every draw uses up at least one counter value.
-/
import BrokerTopology.Name
import BrokerTopology.Hex

namespace BrokerTopology

/-- Makes up names from a nonce and a counter. -/
structure NameGenerator where
  nonce : UInt64
  /-- The counter value of the next candidate. -/
  counter : Nat := 1
deriving DecidableEq

namespace NameGenerator

/-- The name for one counter value. -/
def format (g : NameGenerator) (n : Nat) : String :=
  Name.generatedStem ++ String.ofList (Hex.fixed 16 g.nonce.toNat) ++ "-" ++ toString n

/-- The next candidate; its counter value is used up whether it is free or not. -/
def next (g : NameGenerator) : String × NameGenerator :=
  (g.format g.counter, { g with counter := g.counter + 1 })

/-- The first candidate that is not taken, passing over so many taken ones at most. -/
def draw (taken : String → Bool) : Nat → NameGenerator → String × NameGenerator
  | 0, g => g.next
  -- a taken candidate uses its counter value up as well
  | skips + 1, g => if taken g.next.1 then draw taken skips g.next.2 else g.next

theorem draw_counter_lt (taken : String → Bool) (skips : Nat) (g : NameGenerator) :
    g.counter < (draw taken skips g).2.counter := by
  induction skips generalizing g with
  | zero => exact Nat.lt_succ_self _
  | succ skips ih =>
    rw [draw]
    split
    · have step : g.counter < g.next.2.counter := Nat.lt_succ_self _
      exact Nat.lt_trans step (ih _)
    · exact Nat.lt_succ_self _

end NameGenerator

end BrokerTopology
