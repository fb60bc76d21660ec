/-
  BrokerTopology.Release — the name and the version that the broker goes
  by in lock files, messages and directories.
-/
namespace BrokerTopology

namespace Release

/-- The name of the program. -/
def program : String := "warren"

/-- Its version. -/
def version : String := "0.1.0"

end Release

end BrokerTopology
