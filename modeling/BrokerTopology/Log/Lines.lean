/-
  BrokerTopology.Log.Lines — the text of a log file.

  The first line names the version of the format, and every later line
  holds one entry.  Blank lines and blanks around a line mean nothing.

  A last line that cannot be read is what a crash leaves of a write, and
  is dropped; any other line that cannot be read is damage.  Lines are
  counted as they stand in the file, from one.

  Main statements:
    * `parse_nil` — a file without text is a log without entries.
    * `readEntries_append_torn` — a torn tail takes no entry along.
-/
import BrokerTopology.Durable.Record
import BrokerTopology.Json.Reader
import BrokerTopology.Json.Writer
import BrokerTopology.Log.Error
import BrokerTopology.Text
import BrokerTopology.Word

namespace BrokerTopology

namespace Lines

/-! ## §1. Writing -/

/-- The version of the format. -/
def formatVersion : Nat := 1

/-- The first line of a file, as a document. -/
def writeHeader (version : Nat) : Json := .record [("version", .nat version)]

/-- The line of the header, without its end. -/
def headerText : List Char := (writeHeader formatVersion).write

/-- The line of an entry, without its end. -/
def entryText (e : JournalEntry) : List Char := (Record.writeEntry e).write

/-- Each line with its end. -/
def joinLines (lines : List (List Char)) : List Char :=
  lines.flatMap fun line => line ++ ['\n']

/-- The text of a file with the given entries. -/
def fileText (entries : List JournalEntry) : List Char :=
  joinLines (headerText :: entries.map entryText)

/-! ## §2. Reading -/

/-- The version that a document names. -/
def readHeader (v : Json) : Option Nat := do
  match ← v.fields? ["version"] with
  | [version] => version.natBelow? Word.bound32
  | _ => none

/-- The version that a line names. -/
def headerOf (line : List Char) : Option Nat := (Json.read line).bind readHeader

/-- The entry that a line holds. -/
def entryOf (line : List Char) : Option JournalEntry := (Json.read line).bind Record.readEntry

/-- A line of a file and where it stands. -/
structure NumberedLine where
  number : Nat
  text : List Char
deriving DecidableEq

/-- The lines of a text that are not blank, without the blanks around them. -/
def numberedLines (text : List Char) : List NumberedLine :=
  (((Text.split '\n' text).zipIdx 1).map fun (line, number) =>
    { number, text := Text.trim line }).filter fun line => !line.text.isEmpty

/-- The entries on the lines after the header. -/
def readEntries : List NumberedLine → Except JournalError (List JournalEntry)
  | [] => .ok []
  | line :: rest =>
    match entryOf line.text with
    | some e => (readEntries rest).map (e :: ·)
    -- only what stands at the very end can be the rest of a write
    | none => if rest.isEmpty then .ok [] else .error (.corrupt line.number)

/-- The entries of a file.  Damage to the header is reported of the first line. -/
def parse (text : List Char) : Except JournalError (List JournalEntry) :=
  match numberedLines text with
  | [] => .ok []
  | header :: rest =>
    match headerOf header.text with
    -- a header that nothing follows may be torn too: the log was just made
    | none => if rest.isEmpty then .ok [] else .error (.corrupt 1)
    | some version =>
      if version = formatVersion then readEntries rest
      else .error (.unsupportedVersion version)

theorem parse_nil : parse [] = .ok [] := rfl

theorem readEntries_append_torn {line : NumberedLine} (h : entryOf line.text = none)
    (lines : List NumberedLine) (es : List JournalEntry)
    (hlines : lines.map (fun l => entryOf l.text) = es.map some) :
    readEntries (lines ++ [line]) = .ok es := by
  induction lines generalizing es with
  | nil =>
    cases es with
    | nil => simp [readEntries, h]
    | cons e es => simp at hlines
  | cons l lines ih =>
    cases es with
    | nil => simp at hlines
    | cons e es =>
      simp only [List.map_cons, List.cons.injEq] at hlines
      simp [readEntries, hlines.1, ih es hlines.2, Except.map]

end Lines

end BrokerTopology
