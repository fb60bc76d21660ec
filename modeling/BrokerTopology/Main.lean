/-
  BrokerTopology.Main — the program as it is started from a command line.

  A run is the function `Cli.run` of the arguments, of what surrounds it
  and of the disk.  Around it, the files of the log are read before the run and
  written back after it.

  The lock on the log is held from before the reading until after the
  writing, so no other broker comes in between; a log that another
  broker holds is handed to the run as locked, and nothing is written
  back.  The log is written to a file beside it that is then moved over
  it, so that a crash leaves the old log or the new one.
-/
import BrokerTopology.Cli.Program
import Std.Time.DateTime.Timestamp

namespace BrokerTopology

namespace Cli

/-! ## §1. What a run looks at -/

/-- The variables that a run looks at. -/
def settingNames : List String :=
  ["HOME", "XDG_DATA_HOME", Configuration.directoryVariable, Configuration.syncVariable,
    Configuration.compactAfterVariable] ++ colorSettings

/-- The environment, as far as a run looks at it. -/
def readEnvironment : IO Environment := do
  let values ← settingNames.mapM fun name => do return (name, ← IO.getEnv name)
  return fun name => (values.lookup name).join

/-- The bytes of a file, if there is one.  A file that cannot be read is no missing file. -/
def readBytes? (path : String) : IO (Option ByteArray) := do
  try return some (← IO.FS.readBinFile path)
  catch
    | .noFileOrDirectory .. => return none
    | e => throw e

/-- The number of this process, or zero where the system does not tell. -/
def readPid : IO Nat := do
  try
    let status ← IO.FS.readFile "/proc/self/stat"
    return Nat.ofDigitChars 10 (status.toList.takeWhile Char.isDigit) 0
  catch _ => return 0

/-- The present time in nanoseconds. -/
def readClock : IO Nat := do
  let time ← Std.Time.Timestamp.now
  return time.toNanosecondsSinceUnixEpoch.val.toNat

/-! ## §2. The log before and after -/

/-- Put a file on a disk, if there is one. -/
def withFile (d : Disk) (path : String) : Option ByteArray → Disk
  | none => d
  | some bytes => (d.write path bytes).toOption.getD d

/-- A disk with the log in a directory and its lock file. -/
def readDisk (directory : String) (locked : Bool) : IO Disk := do
  let log := JournalFile.pathIn directory
  let lock := JournalLock.pathIn directory
  let d := (({} : Disk).makeDirectories directory).2
  let d := withFile (withFile d log (← readBytes? log)) lock (← readBytes? lock)
  match d.fileAt lock with
  | .error _ => return d
  | .ok file => return d.setLocked file locked

/-- Write back the log in a directory and its lock file. -/
def writeDisk (directory : String) (d : Disk) : IO Unit := do
  match d.read (JournalLock.pathIn directory) with
  | .error _ => pure ()
  | .ok bytes => IO.FS.writeBinFile (JournalLock.pathIn directory) bytes
  match d.read (JournalFile.pathIn directory) with
  | .error _ => pure ()
  | .ok bytes =>
    let temporary := JournalFile.temporaryPathIn directory
    IO.FS.writeBinFile temporary bytes
    IO.FS.rename temporary (JournalFile.pathIn directory)

/-! ## §3. A run -/

/-- What a run is given that needs no clock. -/
def readSurroundings : IO Surroundings := do
  let env ← readEnvironment
  let output ← (← IO.getStdout).isTty
  let errors ← (← IO.getStderr).isTty
  let claimant : Claimant := { pid := ← readPid, now := 0 }
  return { env, claimant, nonce := 0, elapsed := 0, terminals := { output, errors } }

/-- Run on the log in a directory.  The time that reading the log took stands for the time
that rewriting it takes. -/
def runIn (directory : String) (s : Surroundings) (args : List String) : IO RunResult := do
  let started ← readClock
  unless directory.isEmpty do IO.FS.createDirAll directory
  let handle ← IO.FS.Handle.mk (JournalLock.pathIn directory) .append
  -- the lock is taken before anything is read
  let free ← handle.tryLock
  let d ← readDisk directory (!free)
  let now ← readClock
  let s : Surroundings :=
    { s with
      claimant := { s.claimant with now := now / 1000000000 }
      nonce := UInt64.ofNat now ^^^ UInt64.ofNat (s.claimant.pid * Word.bound32)
      elapsed := (now - started) / 1000000 }
  let (result, after) := run s args d
  -- a log that another broker holds is left alone
  if free then writeDisk directory after
  handle.unlock
  return result

/-- Run with some arguments.  A run that opens no log needs no disk. -/
def runWith (args : List String) : IO RunResult := do
  let s ← readSurroundings
  match directoryOf? s.env args with
  | some directory =>
    try runIn directory s args
    catch e => return s.failure [errorLine (toString e)]
  | none => return (run s args {}).1

end Cli

end BrokerTopology

/-- Run the program and print what it has to say. -/
def main (args : List String) : IO UInt32 := do
  let result ← BrokerTopology.Cli.runWith args
  IO.print result.output
  IO.eprint result.errors
  return UInt32.ofNat result.exitCode
