/-
  BrokerTopology.Log.Error — why a log could not be opened, read or
  written.

  An error names its cause.  The wording is a function of the cause, and
  takes the wording of the I/O error underneath as a parameter, because
  what the operating system says of it is not always shown.
-/
import BrokerTopology.Release

namespace BrokerTopology

/-! ## §1. Input and output -/

/-- Why a file or a log could not be read or written. -/
inductive IoError where
  | notFound
  | alreadyExists
  | notDirectory
  | isDirectory
  | notEmpty
  | nameTooLong
  /-- The directory itself or the root was named where an entry of a directory is wanted. -/
  | invalidName
  | busy
  /-- A path holds a character that ends texts for the operating system. -/
  | holdsNul
  /-- The contents of a file are no text. -/
  | notText
  /-- The log itself refuses, for the reason it gives. -/
  | refused (reason : String)
deriving DecidableEq, Repr

namespace IoError

/-- Whether the operating system reported the error. -/
def isSystem : IoError → Bool
  | holdsNul | notText | refused _ => false
  | _ => true

/-- What is said of an I/O error. -/
def message : IoError → String
  | notFound => "No such file or directory (os error 2)"
  | alreadyExists => "File exists (os error 17)"
  | notDirectory => "Not a directory (os error 20)"
  | isDirectory => "Is a directory (os error 21)"
  | notEmpty => "Directory not empty (os error 39)"
  | nameTooLong => "File name too long (os error 36)"
  | invalidName => "Invalid argument (os error 22)"
  | busy => "Device or resource busy (os error 16)"
  | holdsNul => "file name contained an unexpected NUL byte"
  | notText => "stream did not contain valid UTF-8"
  | refused reason => reason

end IoError

/-! ## §2. Locks -/

/-- Why a log could not be locked. -/
inductive LockError where
  /-- This process holds the log already. -/
  | alreadyOpen (journal : String)
  /-- Another broker holds it, and says which. -/
  | held (journal : String) (pid : Nat) (brokerVersion : String) (heldFor : Nat)
      (lockPath : String)
  /-- Another broker holds it, and does not say which. -/
  | heldUnknown (lockPath : String)
  | openFailed (e : IoError)
deriving DecidableEq, Repr

namespace LockError

/-- What to do about a holder that is gone. -/
def advice (lockPath : String) : String :=
  "\nIf that broker is gone, remove the lock file:\n  " ++ lockPath

/-- What is said of a refused lock. -/
def message (io : IoError → String) : LockError → String
  | alreadyOpen journal => "journal " ++ journal ++ " is already open in this process"
  | held journal pid brokerVersion heldFor lockPath =>
    "journal " ++ journal ++ " is in use by another broker (" ++ Release.program ++ " " ++
      brokerVersion ++ ", pid " ++ toString pid ++ ", held for " ++ toString heldFor ++ "s)" ++
      advice lockPath
  | heldUnknown lockPath =>
    "journal is in use by another broker (lock file unreadable)" ++ advice lockPath
  | openFailed e => "failed to open journal lock: " ++ io e

end LockError

/-! ## §3. Logs -/

/-- Why a log could not be opened, read or written. -/
inductive JournalError where
  | createDir (e : IoError)
  | read (e : IoError)
  | write (e : IoError)
  /-- A record before the end of the log cannot be read. -/
  | corrupt (line : Nat)
  | unsupportedVersion (version : Nat)
  | lock (e : LockError)
deriving DecidableEq, Repr

namespace JournalError

/-- What is said of a failed log. -/
def message (io : IoError → String) : JournalError → String
  | createDir e => "failed to create journal directory: " ++ io e
  | read e => "failed to read journal: " ++ io e
  | write e => "failed to write journal: " ++ io e
  | corrupt line => "corrupt journal at line " ++ toString line
  | unsupportedVersion version => "unsupported journal version: " ++ toString version
  | lock e => e.message io

/-- The I/O error underneath, if there is one. -/
def source? : JournalError → Option IoError
  | createDir e | read e | write e => some e
  | corrupt _ | unsupportedVersion _ => none
  | lock (.openFailed e) => some e
  | lock _ => none

end JournalError

end BrokerTopology
