/-
  BrokerTopology.Proofs.TornLog — a log file that breaks off at any byte.

  A file is read as text first and taken apart into lines after that.  If
  it breaks off between two characters, it is the text of a log that
  breaks off, and every entry reads back whose line is complete.

  If it breaks off inside of a character, it is no text, and it is not
  read at all.  Only a character of more than one byte can be cut, so
  that takes a name that is not plain ASCII.

  Main statements:
    * `cut_of_append` — the first bytes of a text end between two of its
      characters or inside of one.
    * `readText_encode` — a file that holds a text is read as that text.
    * `load_of_torn` — what is read of a file that breaks off.
-/
import BrokerTopology.Log.File
import BrokerTopology.Proofs.LogLines

namespace BrokerTopology

/-! ## §1. The first bytes of a text -/

theorem toByteArray_toList (bytes : ByteArray) : bytes.data.toList.toByteArray = bytes :=
  ByteArray.ext (Array.toList_inj.1 (by rw [List.data_toByteArray]))

/-- Two ways of cutting the same bytes in two: one cut is not after the other. -/
theorem bytes_append_eq_append {a b c d : ByteArray} (h : a ++ b = c ++ d) :
    (∃ e, c = a ++ e ∧ b = e ++ d) ∨ ∃ e, a = c ++ e ∧ d = e ++ b := by
  have hlists : a.data.toList ++ b.data.toList = c.data.toList ++ d.data.toList := by
    rw [← ByteArray.toList_data_append, ← ByteArray.toList_data_append, h]
  have hbytes : ∀ {x : ByteArray} {l m : List UInt8}, x.data.toList = l ++ m →
      x = l.toByteArray ++ m.toByteArray := by
    intro x l m hx
    rw [← toByteArray_toList x, hx, List.toByteArray_append]
  rcases List.append_eq_append_iff.1 hlists with ⟨e, hc, hb⟩ | ⟨e, ha, hd⟩
  · refine Or.inl ⟨e.toByteArray, ?_, ?_⟩
    · rw [hbytes hc, toByteArray_toList]
    · rw [hbytes hb, toByteArray_toList]
  · refine Or.inr ⟨e.toByteArray, ?_, ?_⟩
    · rw [hbytes ha, toByteArray_toList]
    · rw [hbytes hd, toByteArray_toList]

/-- How the first bytes of a text end. -/
inductive Cut (text : List Char) : ByteArray → Prop
  | between {part : List Char} (hpart : part <+: text) : Cut text part.utf8Encode
  | inside {part : List Char} {c : Char} {start more : ByteArray} (hpart : part ++ [c] <+: text)
      (hstart : start.size ≠ 0) (hmore : more.size ≠ 0) (hchar : start ++ more = [c].utf8Encode) :
      Cut text (part.utf8Encode ++ start)

theorem Cut.cons {text : List Char} {bytes : ByteArray} (h : Cut text bytes) (c : Char) :
    Cut (c :: text) ([c].utf8Encode ++ bytes) := by
  cases h with
  | between hpart =>
    rw [← List.utf8Encode_cons]
    exact .between (List.cons_prefix_cons.2 ⟨rfl, hpart⟩)
  | inside hpart hstart hmore hchar =>
    rw [← ByteArray.append_assoc, ← List.utf8Encode_cons]
    exact .inside (List.cons_prefix_cons.2 ⟨rfl, hpart⟩) hstart hmore hchar

/-- The first bytes of a text end between two of its characters, or inside of one. -/
theorem cut_of_append {text : List Char} {bytes rest : ByteArray}
    (h : bytes ++ rest = text.utf8Encode) : Cut text bytes := by
  induction text generalizing bytes with
  | nil =>
    rw [List.utf8Encode_nil, ByteArray.append_eq_empty_iff] at h
    rw [h.1]
    exact .between List.nil_prefix
  | cons c text ih =>
    rw [List.utf8Encode_cons] at h
    rcases bytes_append_eq_append h with ⟨more, hchar, -⟩ | ⟨later, rfl, hlater⟩
    · -- the cut is in the first character or at one of its ends
      by_cases hmore : more.size = 0
      · rw [ByteArray.size_eq_zero_iff.1 hmore, ByteArray.append_empty] at hchar
        rw [← hchar]
        exact .between ⟨text, rfl⟩
      · by_cases hstart : bytes.size = 0
        · rw [ByteArray.size_eq_zero_iff.1 hstart]
          exact .between List.nil_prefix
        · have hinside : Cut (c :: text) ([].utf8Encode ++ bytes) :=
            .inside ⟨text, rfl⟩ hstart hmore hchar.symm
          rwa [List.utf8Encode_nil, ByteArray.empty_append] at hinside
    · exact (ih hlater.symm).cons c

/-- What ends inside of a character is no text. -/
theorem not_isValidUTF8_of_inside {part : List Char} {c : Char} {start more : ByteArray}
    (hstart : start.size ≠ 0) (hmore : more.size ≠ 0) (hchar : start ++ more = [c].utf8Encode) :
    ¬ (part.utf8Encode ++ start).IsValidUTF8 := by
  rintro ⟨whole, hwhole⟩
  -- the text that it would be goes on after the part with some of the character's own bytes
  obtain ⟨left, rfl⟩ := List.isPrefix_of_utf8Encode_append_eq_utf8Encode start hwhole
  rw [List.utf8Encode_append, ByteArray.append_right_inj] at hwhole
  subst hwhole
  have hleft : left <+: [] ++ [c] :=
    List.isPrefix_of_utf8Encode_append_eq_utf8Encode more hchar
  rcases List.prefix_concat_iff.1 hleft with rfl | hnil
  · have hsize := congrArg ByteArray.size hchar
    rw [List.nil_append, ByteArray.size_append] at hsize
    omega
  · rw [List.prefix_nil.1 hnil] at hstart
    exact hstart rfl

/-! ## §2. Files -/

namespace JournalFile

theorem encode_eq (text : List Char) : encode text = text.utf8Encode :=
  String.toByteArray_ofList

theorem encode_append (text more : List Char) :
    encode (text ++ more) = encode text ++ encode more := by
  rw [encode_eq, encode_eq, encode_eq, List.utf8Encode_append]

theorem fromUTF8?_encode (text : List Char) :
    String.fromUTF8? (encode text) = some (String.ofList text) := by
  have hvalid : (encode text).IsValidUTF8 := ⟨text, encode_eq text⟩
  rw [String.fromUTF8?, dif_pos hvalid]
  rfl

/-- Of two beginnings of a text, the one with fewer bytes is the beginning of the other. -/
theorem prefix_of_size_le {text part other : List Char} (hpart : part <+: text)
    (hother : other <+: text) (h : (encode part).size ≤ (encode other).size) : part <+: other := by
  rcases List.prefix_or_prefix_of_prefix hpart hother with hshort | ⟨more, rfl⟩
  · exact hshort
  · rw [encode_append, ByteArray.size_append] at h
    have hmore : (encode more).size = 0 := by omega
    rw [encode_eq, ByteArray.size_eq_zero_iff, List.utf8Encode_eq_empty] at hmore
    exact ⟨[], by rw [hmore, List.append_nil, List.append_nil]⟩

variable {f : JournalFile} {d : Disk}

/-- A file that holds a text is read as that text. -/
theorem readText_encode {path : String} {text : List Char}
    (h : d.read path = .ok (encode text)) : d.readText path = .ok (String.ofList text) := by
  rw [Disk.readText, h]
  simp only [Bind.bind, Except.bind]
  rw [fromUTF8?_encode]

theorem load_encode {text : List Char} (h : d.read f.path = .ok (encode text)) :
    f.load d = Lines.parse text := by
  rw [load, readText_encode h]
  show Lines.parse (String.ofList text).toList = _
  rw [String.toList_ofList]

/-- A file that holds no text is not read. -/
theorem load_of_notText {bytes : ByteArray} (h : d.read f.path = .ok bytes)
    (hbytes : ¬ bytes.IsValidUTF8) : f.load d = .error (.read .notText) := by
  have htext : d.readText f.path = .error .notText := by
    rw [Disk.readText, h]
    simp only [Bind.bind, Except.bind]
    rw [String.fromUTF8?, dif_neg hbytes]
  rw [load, htext]

/-- What is read of a file that breaks off at any byte.  Between two characters the first entries
are read, among them all whose lines are complete but for the line feed; inside of a character
nothing is. -/
theorem load_of_torn {entries : List JournalEntry} (h : ∀ e ∈ entries, e.seq < Record.seqBound)
    {bytes rest : ByteArray} (hread : d.read f.path = .ok bytes)
    (htorn : bytes ++ rest = encode (Lines.fileText entries)) :
    (∃ part, part <+: Lines.fileText entries ∧ bytes = encode part ∧
      ∃ kept, f.load d = .ok kept ∧ kept <+: entries ∧
        ∀ before e, before ++ [e] <+: entries →
          (encode (Lines.fileText before ++ Lines.entryText e)).size ≤ bytes.size →
          before ++ [e] <+: kept) ∨
      ∃ part c, part ++ [c] <+: Lines.fileText entries ∧ (encode part).size < bytes.size ∧
        bytes.size < (encode (part ++ [c])).size ∧ f.load d = .error (.read .notText) := by
  rw [encode_eq] at htorn
  cases cut_of_append htorn with
  | @between part hpart =>
    obtain ⟨kept, hparse, hkept, hall⟩ := Lines.parse_part h hpart
    rw [← encode_eq] at hread
    refine Or.inl ⟨part, hpart, (encode_eq part).symm, kept, ?_, hkept, ?_⟩
    · rw [load_encode hread, hparse]
    · intro before e hentries hsize
      refine hall before e hentries ?_
      -- both are the start of the whole file, so the shorter one is the start of the other
      have hline : Lines.fileText before ++ Lines.entryText e <+: Lines.fileText entries := by
        refine List.IsPrefix.trans ?_ (Lines.fileText_mono hentries)
        rw [Lines.fileText_concat, ← List.append_assoc]
        exact List.prefix_append _ _
      rw [← encode_eq] at hsize
      exact prefix_of_size_le hline hpart hsize
  | @inside part c start more hpart hstart hmore hchar =>
    refine Or.inr ⟨part, c, hpart, ?_, ?_, ?_⟩
    · rw [encode_eq, ByteArray.size_append]
      omega
    · rw [encode_eq, List.utf8Encode_append, ← hchar, ByteArray.size_append, ByteArray.size_append,
        ByteArray.size_append]
      omega
    · exact load_of_notText hread (not_isValidUTF8_of_inside hstart hmore hchar)

/-- The log of a disk that has nothing else on it. -/
def alone : JournalFile where
  directory := "/"
  lock := { file := Disk.root, path := JournalLock.pathIn "/" }

/-- A disk with nothing but a log of the given bytes on it. -/
def diskOf (bytes : ByteArray) : Disk :=
  (({} : Disk).createFile Disk.root fileName).2.setContents 1 bytes

theorem read_alone (bytes : ByteArray) : (diskOf bytes).read alone.path = .ok bytes := rfl

/-- An entry that names a queue with a character of two bytes. -/
def accented : JournalEntry := { seq := 1, ops := [.declareQueue "é" false] }

/-- The first bytes of a log of one entry, and those after them. -/
def accentedBytes (start stop : Nat) : ByteArray :=
  (encode (Lines.fileText [accented])).extract start stop

theorem load_of_torn_of_accented :
    (∀ e ∈ [accented], e.seq < Record.seqBound) ∧
    (diskOf (accentedBytes 0 60)).read alone.path = .ok (accentedBytes 0 60) ∧
    accentedBytes 0 60 ++ accentedBytes 60 87 = encode (Lines.fileText [accented]) ∧
    ((∃ part, part <+: Lines.fileText [accented] ∧ accentedBytes 0 60 = encode part ∧
      ∃ kept, alone.load (diskOf (accentedBytes 0 60)) = .ok kept ∧ kept <+: [accented] ∧
        ∀ before e, before ++ [e] <+: [accented] →
          (encode (Lines.fileText before ++ Lines.entryText e)).size ≤ (accentedBytes 0 60).size →
          before ++ [e] <+: kept) ∨
      ∃ part c, part ++ [c] <+: Lines.fileText [accented] ∧
        (encode part).size < (accentedBytes 0 60).size ∧
        (accentedBytes 0 60).size < (encode (part ++ [c])).size ∧
        alone.load (diskOf (accentedBytes 0 60)) = .error (.read .notText)) :=
  have hseq : ∀ e ∈ [accented], e.seq < Record.seqBound := by decide
  have hbytes : accentedBytes 0 60 ++ accentedBytes 60 87 = encode (Lines.fileText [accented]) := by
    decide +kernel
  ⟨hseq, read_alone _, hbytes, load_of_torn hseq (read_alone _) hbytes⟩

/-- A log that breaks off inside of the name is not read, though the line it breaks off in is the
last one. -/
theorem load_accented_torn :
    (∀ e ∈ [accented], e.seq < Record.seqBound) ∧
    accentedBytes 0 61 ++ accentedBytes 61 87 = encode (Lines.fileText [accented]) ∧
    (diskOf (accentedBytes 0 61)).read alone.path = .ok (accentedBytes 0 61) ∧
    alone.load (diskOf (accentedBytes 0 61)) = .error (.read .notText) :=
  ⟨by decide, by decide +kernel, read_alone _, load_of_notText (read_alone _) (by decide +kernel)⟩

end JournalFile

end BrokerTopology
