/-
  BrokerTopology.Proofs.DiskPaths — where paths lead, and what keeps them
  leading there.

  A name joined to a path is walked after the names of the path.  So if a
  path leads to a directory, a name joined to it leads to that name in
  the directory.

  A walk goes through directories only.  Whatever is done to the files of
  a disk, every path that led somewhere leads there still.

  Main statements:
    * `Path.names_join` — the names of a joined path.
    * `Disk.KeepsTree.locate` — a path leads where it led, as long as the
      directories stay.
    * `Disk.Leads.locate_join` — where a joined path leads.
    * `Disk.Leads.makeDirectories` — a directory that is there need not
      be made.
-/
import BrokerTopology.Disk
import Mathlib.Data.List.Basic

namespace BrokerTopology

/-! ## §1. Joined paths -/

namespace Text

theorem split_append_cons (sep : Char) (before after : List Char) :
    split sep (before ++ sep :: after) = split sep before ++ split sep after := by
  induction before with
  | nil => simp [split]
  | cons c before ih =>
    simp only [List.cons_append, split, ih]
    split
    next => rfl
    next =>
      cases hbefore : split sep before with
      | nil => exact absurd hbefore (split_ne_nil sep before)
      | cons piece pieces => rfl

end Text

namespace Path

/-- A name that may stand under another in a directory. -/
structure IsName (name : String) : Prop where
  ne_empty : name ≠ ""
  no_slash : '/' ∉ name.toList
  ne_dot : name ≠ "."
  ne_dots : name ≠ ".."
  short : name.utf8ByteSize ≤ Disk.maxNameBytes
  no_nul : '\x00' ∉ name.toList

variable {name : String}

theorem isAbsolute_of_isName (h : IsName name) : isAbsolute name = false := by
  rw [isAbsolute, beq_eq_false_iff_ne]
  intro hhead
  exact h.no_slash (List.mem_of_mem_head? hhead)

/-- What stands between a path and a name joined to it. -/
def between (path : String) : String :=
  if path.isEmpty || path.toList.getLast? == some '/' then "" else "/"

theorem join_eq (path : String) (h : IsName name) :
    join path name = path ++ between path ++ name := by
  rw [join, isAbsolute_of_isName h, if_neg Bool.false_ne_true, between]
  split
  next => rw [String.append_empty]
  next => rfl

theorem names_of_split {path : String} {pieces : List (List Char)}
    (h : Text.split '/' path.toList = pieces) :
    names path = (pieces.map String.ofList).filter fun name => name != "" := by
  rw [names, h]

/-- The names of a joined path. -/
theorem names_join (path : String) (h : IsName name) :
    names (join path name) = names path ++ [name] := by
  have hname : Text.split '/' name.toList = [name.toList] := Text.split_of_not_mem h.no_slash
  have hkept : (name != "") = true := bne_iff_ne.2 h.ne_empty
  rw [join_eq path h, between]
  split
  next hends =>
    rw [String.append_empty]
    rcases Bool.or_eq_true_iff.1 hends with hempty | hlast
    · rw [String.isEmpty_iff.1 hempty, String.empty_append, names_of_split hname]
      simp [hkept, names, Text.split]
    · -- the slash at the end stands between two pieces, and the second is no name
      obtain ⟨start, hstart⟩ := List.getLast?_eq_some_iff.1 (beq_iff_eq.1 hlast)
      have hpath : Text.split '/' path.toList = Text.split '/' start ++ [[]] := by
        rw [hstart, Text.split_append_cons]
        rfl
      have hjoined : Text.split '/' (path ++ name).toList =
          Text.split '/' start ++ [name.toList] := by
        rw [String.toList_append, hstart, List.append_assoc, List.singleton_append,
          Text.split_append_cons, hname]
      rw [names_of_split hjoined, names_of_split hpath]
      simp [hkept]
  next =>
    have hjoined : Text.split '/' (path ++ "/" ++ name).toList =
        Text.split '/' path.toList ++ [name.toList] := by
      have hslash : "/".toList = ['/'] := rfl
      rw [String.toList_append, String.toList_append, hslash, List.append_assoc,
        List.singleton_append, Text.split_append_cons, hname]
    rw [names_of_split hjoined]
    simp [hkept, names]

/-- A joined path starts where the path does. -/
theorem isAbsolute_join (path : String) (h : IsName name) :
    isAbsolute (join path name) = isAbsolute path := by
  rw [join_eq path h]
  by_cases hempty : path = ""
  · rw [hempty]
    exact isAbsolute_of_isName h
  · have hne : path.toList ≠ [] := fun hnil => hempty (String.toList_eq_nil_iff.1 hnil)
    rw [isAbsolute, isAbsolute, String.append_assoc, String.toList_append,
      List.head?_append_of_ne_nil _ hne]

/-- A joined path does not end in a slash. -/
theorem endsInSlash_join (path : String) (h : IsName name) :
    endsInSlash (join path name) = false := by
  have hne : name.toList ≠ [] := fun hnil => h.ne_empty (String.toList_eq_nil_iff.1 hnil)
  rw [join_eq path h, endsInSlash, String.toList_append, beq_eq_false_iff_ne,
    List.getLast?_append_of_ne_nil _ hne]
  intro hlast
  exact h.no_slash (List.mem_of_getLast? hlast)

/-- A joined path ends in the name of an entry. -/
theorem endsInEntry_join (path : String) (h : IsName name) :
    endsInEntry (join path name) = true := by
  rw [endsInEntry, names_join path h, List.getLast?_concat]
  simp [h.ne_dot, h.ne_dots]

end Path

/-! ## §2. Directories that stay -/

namespace Disk

/-- The directories of one disk are in the other, each where it was. -/
structure KeepsTree (d d' : Disk) : Prop where
  workingDirectory_eq : d'.workingDirectory = d.workingDirectory
  parent_eq : ∀ number, (d'.directory number).parent = (d.directory number).parent
  directory_eq : ∀ place number, d.entryAt? place = some (.directory number) →
    d'.entryAt? place = some (.directory number)

namespace KeepsTree

variable {d d' : Disk}

theorem step (h : KeepsTree d d') {place place' : Place} {name : String}
    (hstep : d.step place name = .ok place') : d'.step place name = .ok place' := by
  unfold Disk.step at hstep ⊢
  split at hstep
  next => cases hstep
  next => cases hstep
  next number hentry =>
    rw [h.directory_eq place number hentry]
    simp only [h.parent_eq number]
    exact hstep

theorem walk (h : KeepsTree d d') {place place' : Place} {path : String}
    (hwalk : d.walk place path = .ok place') : d'.walk place path = .ok place' := by
  unfold Disk.walk at hwalk ⊢
  generalize Path.names path = names at hwalk ⊢
  -- every step that succeeded was taken in a directory, and the directory is still there
  induction names generalizing place with
  | nil => exact hwalk
  | cons name names ih =>
    rw [List.foldlM_cons] at hwalk ⊢
    cases hstep : d.step place name with
    | error e =>
      rw [hstep] at hwalk
      cases hwalk
    | ok next =>
      rw [hstep] at hwalk
      rw [h.step hstep]
      exact ih hwalk

theorem start (h : KeepsTree d d') {path : String} {place : Place}
    (hstart : d.start path = .ok place) : d'.start path = .ok place := by
  unfold Disk.start at hstart ⊢
  rw [h.workingDirectory_eq]
  split
  next habsolute =>
    rw [if_pos habsolute] at hstart
    exact hstart
  next habsolute =>
    rw [if_neg habsolute] at hstart
    exact h.walk hstart

end KeepsTree

/-! ## §3. Paths that lead to a directory -/

/-- A path leads to a directory, however long it is.  The empty path leads to the directory where
walks start. -/
def Leads (d : Disk) (path : String) (number : Nat) : Prop :=
  ∃ first place, d.start path = .ok first ∧ d.walk first path = .ok place ∧
    d.entryAt? place = some (.directory number)

variable {d d' : Disk} {path name : String} {number : Nat}

theorem Leads.of_keepsTree (h : Leads d path number) (htree : KeepsTree d d') :
    Leads d' path number := by
  obtain ⟨first, place, hstart, hwalk, hentry⟩ := h
  exact ⟨first, place, htree.start hstart, htree.walk hwalk, htree.directory_eq _ _ hentry⟩

theorem locate_eq {first : Place} (hcheck : checkPath path = .ok ())
    (hstart : d.start path = .ok first) : d.locate path = d.walk first path := by
  rw [locate, hcheck]
  show (d.start path).bind (fun place => d.walk place path) = _
  rw [hstart]
  rfl

theorem start_congr {other : String} (h : Path.isAbsolute other = Path.isAbsolute path) :
    d.start other = d.start path := by
  rw [start, start, h]

theorem step_of_directory {place : Place} (h : d.entryAt? place = some (.directory number))
    (hname : Path.IsName name) : d.step place name = .ok (.under number name) := by
  rw [step, h]
  simp only
  rw [if_neg hname.ne_dot, if_neg hname.ne_dots, if_neg (Nat.not_lt.2 hname.short)]

/-- A name joined to a path leads to that name in the directory that the path leads to. -/
theorem Leads.locate_join (h : Leads d path number) (hname : Path.IsName name)
    (hcheck : checkPath (Path.join path name) = .ok ()) :
    d.locate (Path.join path name) = .ok (.under number name) := by
  obtain ⟨first, place, hstart, hwalk, hentry⟩ := h
  rw [← start_congr (Path.isAbsolute_join path hname)] at hstart
  rw [locate_eq hcheck hstart]
  unfold walk at hwalk ⊢
  rw [Path.names_join path hname, List.foldlM_append, hwalk]
  show (d.step place name).bind pure = _
  rw [step_of_directory hentry hname]
  rfl

theorem ensureDirectory_of_leads (h : Leads d path number) (hcheck : checkPath path = .ok ()) :
    d.ensureDirectory path = (.ok (), d) := by
  obtain ⟨first, place, hstart, hwalk, hentry⟩ := h
  have hlocate : d.locate path = .ok place := by rw [locate_eq hcheck hstart, hwalk]
  have hmake : d.makeDirectory path = .error .alreadyExists := by
    rw [makeDirectory, hlocate]
    simp only [Bind.bind, Except.bind]
    rw [hentry]
    cases place with
    | inside => rfl
    | under => rfl
  refine ensureDirectory_of_present hmake ?_
  rw [isDirectory, hlocate]
  simp only [hentry]

/-- A directory that is there need not be made. -/
theorem Leads.makeDirectories (h : Leads d path number)
    (hcheck : path = "" ∨ checkPath path = .ok ()) : d.makeDirectories path = (.ok (), d) := by
  rcases hcheck with rfl | hcheck
  · rfl
  · have hensure := ensureDirectory_of_leads h hcheck
    unfold Disk.makeDirectories
    -- the directories on the way are only made when the last one is not found
    cases Path.ancestors path with
    | nil =>
      unfold ensureWithin
      split
      next => rfl
      next => exact hensure
    | cons parent others =>
      unfold ensureWithin
      rw [hensure]

end Disk

end BrokerTopology
