/-
  BrokerTopology.Word — the numbers that fit into a word.

  Log entries, records and settings hold whole numbers of a fixed width;
  a number of that width is one below its bound.
-/
namespace BrokerTopology

namespace Word

/-- Two to the power of 32; the numbers of 32 bits are those below it. -/
def bound32 : Nat := 4294967296

/-- Two to the power of 64; the numbers of 64 bits are those below it. -/
def bound64 : Nat := 18446744073709551616

end Word

end BrokerTopology
