/-
  BrokerTopology.Path — names of files and directories.

  A path is a text.  Its names stand between slashes, and a path that
  starts with a slash is looked up from the root.  One dot stays in the
  directory it is looked up in, and two dots lead to the one above.

  Main statements:
    * `length_shortenings` — as many directories lie on the way as there
      are names.
-/
import BrokerTopology.Text

namespace BrokerTopology

namespace Path

/-- Whether a path is looked up from the root. -/
def isAbsolute (path : String) : Bool := path.toList.head? == some '/'

/-- A path looked up from a directory, written as one. -/
def join (directory path : String) : String :=
  if isAbsolute path then path
  else if directory.isEmpty || directory.toList.getLast? == some '/' then directory ++ path
  else directory ++ "/" ++ path

/-- The names on a path, from the front; what stands between two slashes side by side is
none. -/
def names (path : String) : List String :=
  ((Text.split '/' path.toList).map String.ofList).filter fun name => name != ""

/-- Whether a path ends in a slash. -/
def endsInSlash (path : String) : Bool := path.toList.getLast? == some '/'

/-- Whether the last name on a path is that of an entry.  One dot stays in a directory and two
dots leave it. -/
def endsInEntry (path : String) : Bool :=
  match (names path).getLast? with
  | none => false
  | some name => name != "." && name != ".."

/-- A path with the given names. -/
def ofNames (absolute : Bool) (names : List String) : String :=
  (if absolute then "/" else "") ++ "/".intercalate names

/-- The names on a path that tell apart the directories on the way: a single dot does so only
at the front. -/
def steps (path : String) : List String :=
  match names path with
  | [] => []
  | first :: rest =>
    let rest := rest.filter (· != ".")
    if first = "." && isAbsolute path then rest else first :: rest

/-- The paths that are left when names are left off at the end, given the names from the last
one on. -/
def shortenings (absolute : Bool) : List String → List String
  | [] => []
  | _ :: rest => ofNames absolute rest.reverse :: shortenings absolute rest

/-- The directories that the end of a path is in, the nearest one first. -/
def ancestors (path : String) : List String :=
  shortenings (isAbsolute path) (steps path).reverse

theorem length_shortenings (absolute : Bool) (names : List String) :
    (shortenings absolute names).length = names.length := by
  induction names with
  | nil => rfl
  | cons name names ih => simp [shortenings, ih]

end Path

end BrokerTopology
