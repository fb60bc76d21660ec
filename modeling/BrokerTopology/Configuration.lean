/-
  BrokerTopology.Configuration — where the log is kept and how often it
  is rewritten, as the environment says.

  A variable that is not set leaves the default; one that is set must
  have a value that makes sense, and the flush policy is looked at
  first.  The directory of the log has a variable of its own, and is
  otherwise found below the place where the user's data is kept.

  Main statements:
    * `SyncPolicy.ofName?_name` — a policy and its name determine each
      other.
    * `withDirectory_compactAfter` — another directory changes only the
      directory.
-/
import BrokerTopology.Path
import BrokerTopology.Release
import BrokerTopology.Word

namespace BrokerTopology

/-! ## §1. Flush policy -/

/-- When appended entries are flushed. -/
inductive SyncPolicy where
  | always
  | never
deriving DecidableEq, Repr

namespace SyncPolicy

/-- The name of a policy. -/
def name : SyncPolicy → String
  | always => "always"
  | never => "never"

/-- The policy of a name. -/
def ofName? (text : String) : Option SyncPolicy :=
  [always, never].find? fun policy => policy.name == text

/-- What is reported of a text that names no policy. -/
def unknownMessage (text : String) : String :=
  "unknown sync policy '" ++ text ++ "' (expected 'always' or 'never')"

theorem ofName?_name (policy : SyncPolicy) : ofName? policy.name = some policy := by
  cases policy <;> decide

end SyncPolicy

/-! ## §2. Whole numbers -/

/-- Why a text is no whole number of 64 bits. -/
inductive WholeNumberError where
  | empty
  | invalidDigit
  | tooLarge
deriving DecidableEq, Repr

/-- What is said of such a text. -/
def WholeNumberError.message : WholeNumberError → String
  | empty => "cannot parse integer from empty string"
  | invalidDigit => "invalid digit found in string"
  | tooLarge => "number too large to fit in target type"

namespace WholeNumber

/-- Append a digit to a number. -/
def step (n : Nat) (c : Char) : Except WholeNumberError Nat :=
  if !c.isDigit then .error .invalidDigit
  else
    let next := 10 * n + (c.toNat - '0'.toNat)
    if next < Word.bound64 then .ok next else .error .tooLarge

/-- The number that decimal digits write, after a plus sign or none.  Whatever is wrong first
is reported. -/
def ofText (text : String) : Except WholeNumberError Nat :=
  match text.toList with
  | [] => .error .empty
  -- a sign must have digits after it, and there is no other sign than plus
  | ['+'] => .error .invalidDigit
  | '+' :: digits => digits.foldlM step 0
  | digits => digits.foldlM step 0

end WholeNumber

/-! ## §3. Configurations -/

/-- The variables of an environment. -/
abbrev Environment := String → Option String

/-- Where a log is kept. -/
inductive JournalPlace where
  | memory
  | directory (path : String) (sync : SyncPolicy)
deriving DecidableEq, Repr

/-- What a broker is configured with. -/
structure Configuration where
  journal : JournalPlace
  compactAfter : Nat := 4096
deriving DecidableEq, Repr

/-- A variable whose value makes no sense. -/
structure InvalidSetting where
  setting : String
  value : String
  reason : String
deriving DecidableEq, Repr

/-- What is said of it. -/
def InvalidSetting.message (e : InvalidSetting) : String :=
  "invalid value '" ++ e.value ++ "' for " ++ e.setting ++ ": " ++ e.reason

namespace Configuration

/-- The variable with the directory of the log. -/
def directoryVariable : String := "WARREN_DATA_DIR"

/-- The variable with the flush policy. -/
def syncVariable : String := "WARREN_JOURNAL_SYNC"

/-- The variable that says how many entries have the log rewritten. -/
def compactAfterVariable : String := "WARREN_COMPACT_AFTER"

/-- The user's home directory. -/
def home (env : Environment) : String := (env "HOME").getD "."

/-- The place where the user's data is kept. -/
def userData (env : Environment) : String :=
  (env "XDG_DATA_HOME").getD (Path.join (Path.join (home env) ".local") "share")

/-- The directory of the log. -/
def dataDirectory (env : Environment) : String :=
  (env directoryVariable).getD (Path.join (userData env) Release.program)

/-- The flush policy. -/
def syncOf (env : Environment) : Except InvalidSetting SyncPolicy :=
  match env syncVariable with
  | none => .ok .always
  | some value =>
    match SyncPolicy.ofName? value with
    | some policy => .ok policy
    | none =>
      .error { setting := syncVariable, value, reason := SyncPolicy.unknownMessage value }

/-- How many entries have the log rewritten. -/
def compactAfterOf (env : Environment) : Except InvalidSetting Nat :=
  match env compactAfterVariable with
  | none => .ok 4096
  | some value =>
    let invalid (reason : String) : InvalidSetting :=
      { setting := compactAfterVariable, value, reason }
    match WholeNumber.ofText value with
    | .error e => .error (invalid e.message)
    -- a threshold of nothing would rewrite the log for no entry at all
    | .ok 0 => .error (invalid "must be greater than zero")
    | .ok n => .ok n

/-- The configuration that the environment asks for. -/
def ofEnvironment (env : Environment) : Except InvalidSetting Configuration := do
  let sync ← syncOf env
  let compactAfter ← compactAfterOf env
  .ok { journal := .directory (dataDirectory env) sync, compactAfter }

/-- A log in memory. -/
def inMemory : Configuration where
  journal := .memory

/-- A log in a directory, flushed after every entry. -/
def inDirectory (path : String) : Configuration where
  journal := .directory path .always

/-- The same configuration with another directory for the log. -/
def withDirectory (c : Configuration) (path : String) : Configuration :=
  match c.journal with
  | .memory => { c with journal := .directory path .always }
  | .directory _ sync => { c with journal := .directory path sync }

theorem withDirectory_compactAfter (c : Configuration) (path : String) :
    (c.withDirectory path).compactAfter = c.compactAfter := by
  unfold withDirectory
  split <;> rfl

end Configuration

end BrokerTopology
