/-
  BrokerTopology.Proofs.LogFiles — what the calls on a log file do.

  In a directory that can host it a log is taken hold of, read, appended
  to, rewritten and given up, and none of that fails.  `Offers` says what
  a broker finds that opens the log, and `Holds` what one has that opened
  it: the text of the log, and the file that it appends to, if it
  appended one before.

  Main statements:
    * `JournalFile.acquire_of_offers`, `JournalFile.Holds.release` — what
      is offered is held, and offered again.
    * `JournalFile.Holds.load` — the text is read.
    * `JournalFile.Holds.rewrite`, `JournalFile.Holds.append` — the text
      that is there afterwards.  What an entry is put at the end of is
      `JournalFile.base`.
-/
import BrokerTopology.Proofs.LogDirectory
import BrokerTopology.Proofs.TornLog

namespace BrokerTopology

namespace Disk

/-! ## §1. What a broker finds and what it has -/

/-- The bytes of the log in a directory, if there is one. -/
def logBytes (d : Disk) (number : Nat) : Option ByteArray :=
  (d.fileUnder number JournalFile.fileName).map fun found => found.2.contents

/-- A directory in which a log with this text can be opened. -/
structure Offers (d : Disk) (path : String) (number : Nat) (text : Option (List Char)) : Prop where
  hosts : d.Hosts path number
  logBytes_eq : d.logBytes number = text.map JournalFile.encode
  unlocked : ∀ id file, d.fileUnder number JournalLock.fileName = some (id, file) →
    file.locked = false

variable {d after : Disk} {path name : String} {number id : Nat} {file : DiskFile}

/-- What becomes of another name does not touch the log. -/
theorem Becomes.logBytes_eq {found : Option (Nat × DiskFile)}
    (h : Becomes d after path number name found) (hname : name ≠ JournalFile.fileName) :
    after.logBytes number = d.logBytes number := by
  rw [logBytes, logBytes, h.others _ JournalFile.fileName_mem_names hname.symm]

theorem logBytes_of_found (h : d.fileUnder number JournalFile.fileName = some (id, file)) :
    d.logBytes number = some file.contents := by
  rw [logBytes, h]
  rfl

/-- Replacing the bytes of a file. -/
theorem Hosts.setContents (h : d.Hosts path number) (hname : name ∈ JournalFile.names)
    (hfound : d.fileUnder number name = some (id, file)) (bytes : ByteArray) :
    Becomes d (d.setContents id bytes) path number name
      (some (id, { file with contents := bytes })) := by
  obtain ⟨-, rfl⟩ := fileUnder_eq_some.1 hfound
  exact h.setFile hname hfound _

/-- Putting bytes at the end of a file. -/
theorem Hosts.extend (h : d.Hosts path number) (hname : name ∈ JournalFile.names)
    (hfound : d.fileUnder number name = some (id, file)) (bytes : ByteArray) :
    Becomes d (d.extend id bytes) path number name
      (some (id, { file with contents := file.contents ++ bytes })) := by
  have hset := h.setContents hname hfound (d.contents id ++ bytes)
  obtain ⟨-, rfl⟩ := fileUnder_eq_some.1 hfound
  exact hset

/-- Locking or unlocking a file. -/
theorem Hosts.setLocked (h : d.Hosts path number) (hname : name ∈ JournalFile.names)
    (hfound : d.fileUnder number name = some (id, file)) (locked : Bool) :
    Becomes d (d.setLocked id locked) path number name (some (id, { file with locked })) := by
  obtain ⟨-, rfl⟩ := fileUnder_eq_some.1 hfound
  exact h.setFile hname hfound _

end Disk

namespace JournalFile

theorem fileName_ne_lockName : fileName ≠ JournalLock.fileName := by decide

theorem temporaryName_ne_lockName : temporaryName ≠ JournalLock.fileName := by decide

/-- A log file that a broker has open, with this text in it. -/
structure Holds (f : JournalFile) (d : Disk) (number : Nat) (text : Option (List Char)) : Prop where
  hosts : d.Hosts f.directory number
  logBytes_eq : d.logBytes number = text.map encode
  lock_eq : ∃ file, d.fileUnder number JournalLock.fileName = some (f.lock.file, file)
  /-- The file that entries are appended to is the one with the text. -/
  appendTo_eq : ∀ id, f.appendTo = some id →
    ∃ file, d.fileUnder number fileName = some (id, file)

variable {f : JournalFile} {d d' : Disk} {path : String} {number : Nat} {text : Option (List Char)}

/-! ## §2. Taking hold and giving up -/

/-- The lock of a directory on offer is taken, and nothing else is touched. -/
theorem lock_of_offers (h : d.Offers path number text) (claimant : Claimant) (journal : String) :
    ∃ lock after file, JournalLock.acquire claimant path journal d = (.ok lock, after) ∧
      Disk.Becomes d after path number JournalLock.fileName (some (lock.file, file)) := by
  obtain ⟨id, opened, hopen, hopened⟩ := h.hosts.openFile lockName_mem_names
  -- a lock file that was just created is as free as one on offer
  have hunlocked : opened.isLocked id = false := by
    obtain ⟨-, hfile⟩ := Disk.fileUnder_eq_some.1 hopened.found_eq
    rw [Disk.isLocked, hfile]
    cases hfound : d.fileUnder number JournalLock.fileName with
    | none => rfl
    | some found => exact h.unlocked found.1 found.2 hfound
  have hlocked := hopened.hosts.setLocked lockName_mem_names hopened.found_eq true
  have hwritten := hlocked.hosts.setContents lockName_mem_names hlocked.found_eq
    (LockHolder.ofClaimant claimant journal).toText.toUTF8
  refine ⟨{ file := id, path := JournalLock.pathIn path }, _, _, ?_,
    (hopened.trans hlocked).trans hwritten⟩
  have hpath : d.openFile (JournalLock.pathIn path) = .ok (id, opened) := hopen
  simp only [JournalLock.acquire, hpath, hunlocked]
  rfl

/-- A log on offer is taken hold of. -/
theorem acquire_of_offers (hmake : d.makeDirectories path = (.ok (), d'))
    (h : d'.Offers path number text) (claimant : Claimant) :
    ∃ f after, acquire claimant path d = (.ok f, after) ∧ f.directory = path ∧
      f.Holds after number text := by
  obtain ⟨lock, after, file, hlock, hafter⟩ := lock_of_offers h claimant (pathIn path)
  refine ⟨{ directory := path, lock }, after, ?_, rfl, hafter.hosts, ?_,
    ⟨file, hafter.found_eq⟩, nofun⟩
  · rw [acquire, hmake]
    simp only [hlock]
  · rw [hafter.logBytes_eq fileName_ne_lockName.symm, h.logBytes_eq]

/-- A log that is given up is on offer again. -/
theorem Holds.release (h : f.Holds d number text) :
    (f.release d).Offers f.directory number text := by
  obtain ⟨file, hfound⟩ := h.lock_eq
  have hreleased := h.hosts.setLocked lockName_mem_names hfound false
  refine ⟨hreleased.hosts, ?_, ?_⟩
  · exact (hreleased.logBytes_eq fileName_ne_lockName.symm).trans h.logBytes_eq
  · intro id file' hfound'
    have heq := hreleased.found_eq.symm.trans hfound'
    injection heq with heq
    injection heq with _ heq
    rw [← heq]

/-- A disk with nothing but a log on it offers it. -/
theorem offers_diskOf (whole : List Char) :
    (diskOf (encode whole)).Offers "/" Disk.root (some whole) := by
  have hempty : Disk.Hosts {} "/" Disk.root := by
    refine ⟨by decide, ⟨_, _, rfl, rfl, rfl⟩, ?_, ?_, ?_⟩
    · intro name _ other
      exact nofun
    · intro name _ id
      exact nofun
    · intro name _ name' _ id
      exact nofun
  have hcreated := hempty.createFile fileName_mem_names
  have hwritten := hcreated.hosts.setContents fileName_mem_names hcreated.found_eq (encode whole)
  refine ⟨hwritten.hosts, ?_, ?_⟩
  · exact Disk.logBytes_of_found hwritten.found_eq
  · intro id file hfound
    have hfree := (hcreated.trans hwritten).others _ lockName_mem_names fileName_ne_lockName.symm
    have hfound' := hfree.symm.trans hfound
    cases hfound'

/-! ## §3. Reading and writing -/

/-- The file with the text, if there is a text. -/
theorem Holds.found {whole : List Char} (h : f.Holds d number (some whole)) :
    ∃ id file, d.fileUnder number fileName = some (id, file) ∧ file.contents = encode whole := by
  have hbytes := h.logBytes_eq
  rw [Disk.logBytes] at hbytes
  obtain ⟨⟨id, file⟩, hfound, hfile⟩ := Option.map_eq_some_iff.1 hbytes
  exact ⟨id, file, hfound, hfile⟩

theorem Holds.read {whole : List Char} (h : f.Holds d number (some whole)) :
    d.read f.path = .ok (encode whole) := by
  obtain ⟨id, file, hfound, hfile⟩ := h.found
  have hread := h.hosts.read_eq fileName_mem_names
  rw [hfound] at hread
  simp only [hfile] at hread
  exact hread

/-- What is read of a log depends on its bytes only, and none are as good as an empty text. -/
theorem load_of_hosts (h : d.Hosts path number) (hf : f.directory = path)
    (hbytes : d.logBytes number = text.map encode) :
    f.load d = Lines.parse (text.getD []) := by
  have hread := h.read_eq fileName_mem_names
  have hpath : f.path = Path.join path fileName := congrArg pathIn hf
  rw [Disk.logBytes] at hbytes
  cases hfound : d.fileUnder number fileName with
  | none =>
    rw [hfound] at hread hbytes
    rw [Option.map_eq_none_iff.1 hbytes.symm]
    refine load_of_missing ?_
    rw [Disk.readText, hpath, hread]
    rfl
  | some found =>
    rw [hfound] at hread hbytes
    obtain ⟨whole, rfl, hwhole⟩ := Option.map_eq_some_iff.1 hbytes.symm
    refine load_encode ?_
    rw [hpath, hread]
    exact congrArg Except.ok hwhole.symm

/-- What is read is the text. -/
theorem Holds.load (h : f.Holds d number text) : f.load d = Lines.parse (text.getD []) :=
  load_of_hosts h.hosts rfl h.logBytes_eq

/-- Rewriting puts the text of the entries in place of any. -/
theorem Holds.rewrite (h : f.Holds d number text) (entries : List JournalEntry) :
    ∃ f' after, f.rewrite entries d = (.ok (), f', after) ∧ f'.directory = f.directory ∧
      f'.Holds after number (some (Lines.fileText entries)) := by
  obtain ⟨id, opened, hopen, hopened⟩ := h.hosts.openFile temporaryName_mem_names
  have hwritten := hopened.trans (hopened.hosts.setContents temporaryName_mem_names
    hopened.found_eq (encode (Lines.fileText entries)))
  obtain ⟨after, hrename, hhosts, hfound, hothers⟩ := hwritten.hosts.renameFile
    temporaryName_mem_names fileName_mem_names hwritten.found_eq
  obtain ⟨lockFile, hlock⟩ := h.lock_eq
  refine ⟨{ f with appendTo := none }, after, ?_, rfl, hhosts, ?_, ⟨lockFile, ?_⟩, nofun⟩
  · have hwrite : d.write f.temporaryPath (encode (Lines.fileText entries)) =
        .ok (opened.setContents id (encode (Lines.fileText entries))) := by
      have hpath : d.openFile f.temporaryPath = .ok (id, opened) := hopen
      rw [Disk.write, hpath]
      rfl
    have hmove : (opened.setContents id (encode (Lines.fileText entries))).renameFile
        ({ f with appendTo := none } : JournalFile).temporaryPath
        ({ f with appendTo := none } : JournalFile).path = .ok after := hrename
    simp only [JournalFile.rewrite, hwrite, hmove]
  · rw [Disk.logBytes_of_found hfound]
    rfl
  · rw [hothers _ lockName_mem_names temporaryName_ne_lockName.symm fileName_ne_lockName.symm,
      hwritten.others _ lockName_mem_names temporaryName_ne_lockName.symm, hlock]

theorem size_encode_eq_zero {whole : List Char} : (encode whole).size = 0 ↔ whole = [] := by
  rw [encode_eq, ByteArray.size_eq_zero_iff, List.utf8Encode_eq_empty]

/-- The text that an entry is put at the end of.  A file that is opened with nothing in it gets its
first line before. -/
def base (f : JournalFile) (text : Option (List Char)) : List Char :=
  if f.appendTo = none ∧ text.getD [] = [] then Lines.joinLines [Lines.headerText]
  else text.getD []

theorem base_of_ne_nil {whole : List Char} (h : whole ≠ []) : f.base (some whole) = whole :=
  if_neg fun hempty => h hempty.2

/-- A file is fresh if there is no text in it. -/
theorem Holds.isFresh_eq (h : f.Holds d number text) :
    f.isFresh d = decide (text.getD [] = []) := by
  have hread := h.hosts.read_eq fileName_mem_names
  have hbytes := h.logBytes_eq
  unfold isFresh
  rw [path, pathIn, hread]
  cases hfound : d.fileUnder number fileName with
  | none =>
    rw [Disk.logBytes, hfound, Option.map_none] at hbytes
    rw [Option.map_eq_none_iff.1 hbytes.symm]
    rfl
  | some found =>
    rw [Disk.logBytes_of_found hfound] at hbytes
    obtain ⟨whole, rfl, hwhole⟩ := Option.map_eq_some_iff.1 hbytes.symm
    simp only [← hwhole, Option.getD_some, size_encode_eq_zero]

/-- The file that an entry is appended to. -/
theorem Holds.opened (h : f.Holds d number text) :
    ∃ id file after, f.opened d = .ok (id, after) ∧
      Disk.Becomes d after f.directory number fileName (some (id, file)) ∧
      file.contents = encode (f.base text) := by
  unfold JournalFile.opened base
  cases happend : f.appendTo with
  | some id =>
    -- the file that is open already is the one with the text
    obtain ⟨file, hfound⟩ := h.appendTo_eq id happend
    have hsame := h.hosts.same fileName
    rw [hfound] at hsame
    refine ⟨id, file, d, rfl, hsame, ?_⟩
    have hbytes := h.logBytes_eq
    rw [Disk.logBytes_of_found hfound] at hbytes
    obtain ⟨whole, rfl, hwhole⟩ := Option.map_eq_some_iff.1 hbytes.symm
    rw [if_neg (by simp)]
    exact hwhole.symm
  | none =>
    obtain ⟨id, opened, hopen, hopened⟩ := h.hosts.openFile fileName_mem_names
    have hpath : d.openFile f.path = .ok (id, opened) := hopen
    have hcontents : (((d.fileUnder number fileName).map Prod.snd).getD {}).contents =
        encode (text.getD []) := by
      have hbytes := h.logBytes_eq
      rw [Disk.logBytes] at hbytes
      cases hfound : d.fileUnder number fileName with
      | none =>
        rw [hfound, Option.map_none] at hbytes
        rw [Option.map_eq_none_iff.1 hbytes.symm]
        rfl
      | some found =>
        rw [hfound, Option.map_some] at hbytes
        obtain ⟨whole, rfl, hwhole⟩ := Option.map_eq_some_iff.1 hbytes.symm
        exact hwhole.symm
    simp only [hpath, h.isFresh_eq, decide_eq_true_eq, true_and]
    by_cases hempty : text.getD [] = []
    · rw [if_pos hempty, if_pos hempty]
      rw [hempty] at hcontents
      refine ⟨id, _, _, rfl, hopened.trans (hopened.hosts.extend fileName_mem_names
        hopened.found_eq (encode (Lines.joinLines [Lines.headerText]))), ?_⟩
      rw [hcontents, ← encode_append, List.nil_append]
    · rw [if_neg hempty, if_neg hempty]
      exact ⟨id, _, opened, rfl, hopened, hcontents⟩

/-- Appending puts one line at the end of the text. -/
theorem Holds.append (h : f.Holds d number text) (e : JournalEntry) :
    ∃ f' after, f.append e d = (.ok (), f', after) ∧ f'.directory = f.directory ∧
      f'.Holds after number (some (f.base text ++ Lines.joinLines [Lines.entryText e])) := by
  obtain ⟨id, file, after, hopened, hafter, hfile⟩ := h.opened
  have hextended := hafter.trans (hafter.hosts.extend fileName_mem_names hafter.found_eq
    (encode (Lines.joinLines [Lines.entryText e])))
  obtain ⟨lockFile, hlock⟩ := h.lock_eq
  refine ⟨{ f with appendTo := some id }, _, ?_, rfl, hextended.hosts, ?_, ⟨lockFile, ?_⟩, ?_⟩
  · simp only [JournalFile.append, hopened]
  · rw [Disk.logBytes_of_found hextended.found_eq, hfile, ← encode_append]
    rfl
  · rw [hextended.others _ lockName_mem_names fileName_ne_lockName.symm, hlock]
  · rintro _ ⟨⟩
    exact ⟨_, hextended.found_eq⟩

/-- Appending to a log with these entries. -/
theorem Holds.append_fileText {entries : List JournalEntry}
    (h : f.Holds d number (some (Lines.fileText entries))) (e : JournalEntry) :
    ∃ f' after, f.append e d = (.ok (), f', after) ∧ f'.directory = f.directory ∧
      f'.Holds after number (some (Lines.fileText (entries ++ [e]))) := by
  have hne : Lines.fileText entries ≠ [] := by
    rw [Lines.fileText_eq]
    exact List.append_ne_nil_of_right_ne_nil _ (List.cons_ne_nil _ _)
  have hline : Lines.joinLines [Lines.entryText e] = Lines.entryText e ++ ['\n'] :=
    Lines.joinLines_cons _ _
  have happended := h.append e
  rw [base_of_ne_nil hne, hline, ← Lines.fileText_concat] at happended
  exact happended

end JournalFile

end BrokerTopology
