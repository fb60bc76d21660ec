/-
  BrokerTopology.Proofs.DamageReports — which line damage is reported of.

  A line of a log is damage if it is not blank and spells not what it
  should, all lines before it do as far as they are not blank, and
  something stands after it.  The first line that is not blank should
  spell a header, all later ones an entry.  Blank lines count as lines,
  though nothing is read of them.

  Damage below the header is reported of the line that it is on.  Damage
  to the header itself is reported of the first line of the file, also
  where blank lines stand above the header.

  Main statements:
    * `numberedFrom_eq_append` — where the lines that are read stand in
      the text.
    * `readEntries_of_unspelled` — entries are refused for the first that
      cannot be read.
    * `parse_corrupt_iff` — when a text is refused as damaged, and which
      line is named.
-/
import BrokerTopology.Proofs.AppendedEntries

namespace BrokerTopology

namespace Lines

/-! ## §1. The lines of a text as they stand in it -/

/-- The lines of a text, without the blanks around them.  The first one has number one. -/
def physicalLines (text : List Char) : List (List Char) := (Text.split '\n' text).map Text.trim

/-- Those lines that are not blank. -/
def written (lines : List (List Char)) : List (List Char) := lines.filter fun line => !line.isEmpty

theorem written_append (lines more : List (List Char)) :
    written (lines ++ more) = written lines ++ written more :=
  List.filter_append ..

theorem written_singleton {line : List Char} (h : line ≠ []) : written [line] = [line] :=
  List.filter_cons_of_pos (by simpa using h)

/-- Lines that are not blank, numbered on from a number; blank ones have a number too. -/
def numberedFrom (start : Nat) (lines : List (List Char)) : List NumberedLine :=
  ((lines.zipIdx start).map fun (text, number) => { number, text }).filter fun line =>
    !line.text.isEmpty

theorem numberedLines_eq (text : List Char) :
    numberedLines text = numberedFrom 1 (physicalLines text) := by
  rw [numberedFrom, physicalLines, List.zipIdx_map, List.map_map]
  rfl

theorem numberedFrom_append (start : Nat) (lines more : List (List Char)) :
    numberedFrom start (lines ++ more) =
      numberedFrom start lines ++ numberedFrom (start + lines.length) more := by
  rw [numberedFrom, List.zipIdx_append, List.map_append, List.filter_append]
  rfl

theorem numberedFrom_cons {line : List Char} (h : line ≠ []) (start : Nat)
    (lines : List (List Char)) :
    numberedFrom start (line :: lines) = ⟨start, line⟩ :: numberedFrom (start + 1) lines := by
  rw [numberedFrom, List.zipIdx_cons, List.map_cons, List.filter_cons_of_pos (by simpa using h)]
  rfl

theorem texts_numberedFrom (start : Nat) (lines : List (List Char)) :
    (numberedFrom start lines).map NumberedLine.text = written lines := by
  conv_rhs => rw [written, ← List.zipIdx_map_fst start lines, List.filter_map]
  rw [numberedFrom, List.filter_map, List.map_map]
  rfl

/-- Where a line stands that is read, and what stands before and after it. -/
theorem numberedFrom_eq_append {lines : List (List Char)} {start : Nat}
    {front back : List NumberedLine} {line : NumberedLine}
    (h : numberedFrom start lines = front ++ line :: back) :
    ∃ before after, lines = before ++ line.text :: after ∧ line.number = start + before.length ∧
      line.text ≠ [] ∧ written before = front.map NumberedLine.text ∧
      written after = back.map NumberedLine.text := by
  -- by the lines: the one that is looked for is the first, or it stands among the others
  induction lines generalizing start front with
  | nil => cases front <;> cases h
  | cons first lines ih =>
    by_cases hblank : first = []
    · subst hblank
      -- a blank line is passed over, and only the numbers go up
      have hrest : numberedFrom (start + 1) lines = front ++ line :: back := h
      obtain ⟨before, after, rfl, hnumber, hline, hfront, hback⟩ := ih hrest
      refine ⟨[] :: before, after, rfl, ?_, hline, hfront, hback⟩
      rw [hnumber, List.length_cons]
      omega
    · rw [numberedFrom_cons hblank] at h
      cases front with
      | nil =>
        injection h with hline hback
        subst hline
        exact ⟨[], lines, rfl, rfl, hblank, rfl, by rw [← hback, texts_numberedFrom]⟩
      | cons next front =>
        injection h with hnext hrest
        obtain ⟨before, after, rfl, hnumber, hline, hfront, hback⟩ := ih hrest
        refine ⟨first :: before, after, rfl, ?_, hline, ?_, hback⟩
        · rw [hnumber, List.length_cons]
          omega
        · rw [← hnext, List.map_cons, ← hfront]
          exact List.filter_cons_of_pos (by simpa using hblank)

/-! ## §2. Damage -/

/-- Whether lines that are not blank spell what they should: a header, and then entries. -/
def spelled : List (List Char) → Bool
  | [] => true
  | header :: lines => (headerOf header).isSome && lines.all fun line => (entryOf line).isSome

theorem spelled_cons_concat {header : List Char} {lines : List (List Char)}
    (h : spelled (header :: lines) = true) (line : List Char) :
    spelled (header :: lines ++ [line]) = (entryOf line).isSome := by
  rw [spelled, Bool.and_eq_true] at h
  rw [List.cons_append, spelled, h.1, List.all_append, h.2]
  simp

/-- The line of a text that is damage, by its number: it is not blank and spells not what it
should, unlike all before it, and something stands after it. -/
inductive DamagedAt (text : List Char) : Nat → Prop
  | line {before after : List (List Char)} {bad : List Char}
      (hlines : physicalLines text = before ++ bad :: after) (hbad : bad ≠ [])
      (hbefore : spelled (written before) = true)
      (hspelled : spelled (written (before ++ [bad])) = false) (hafter : written after ≠ []) :
      DamagedAt text (before.length + 1)

/-- The version that the first line names that is not blank. -/
def version? (text : List Char) : Option Nat := (written (physicalLines text)).head?.bind headerOf

theorem version?_eq {text : List Char} {header : NumberedLine} {rest : List NumberedLine}
    (h : numberedLines text = header :: rest) : version? text = headerOf header.text := by
  rw [version?, ← texts_numberedFrom 1, ← numberedLines_eq, h]
  rfl

/-! ## §3. What is reported -/

/-- Entries are refused for the first line that spells none, unless it is the last. -/
theorem readEntries_of_unspelled {front back : List NumberedLine} {line : NumberedLine}
    (hfront : (front.all fun l => (entryOf l.text).isSome) = true)
    (hentry : entryOf line.text = none) (hback : back ≠ []) :
    readEntries (front ++ line :: back) = .error (.corrupt line.number) := by
  induction front with
  | nil =>
    rw [List.nil_append, readEntries, hentry]
    exact if_neg (by simpa using hback)
  | cons first front ih =>
    rw [List.all_cons, Bool.and_eq_true] at hfront
    obtain ⟨e, he⟩ := Option.isSome_iff_exists.1 hfront.1
    rw [List.cons_append, readEntries, he]
    simp only
    rw [ih hfront.2]
    rfl

/-- If entries are refused as damaged, it is for such a line. -/
theorem exists_unspelled_of_readEntries {lines : List NumberedLine} {n : Nat}
    (h : readEntries lines = .error (.corrupt n)) :
    ∃ front line back, lines = front ++ line :: back ∧
      (front.all fun l => (entryOf l.text).isSome) = true ∧ entryOf line.text = none ∧
      back ≠ [] ∧ line.number = n := by
  induction lines with
  | nil => cases h
  | cons first lines ih =>
    rw [readEntries] at h
    cases hentry : entryOf first.text with
    | none =>
      rw [hentry] at h
      by_cases hlast : lines = []
      · rw [hlast] at h
        cases h
      · simp only [List.isEmpty_iff, if_neg hlast] at h
        injection h with h
        injection h with h
        exact ⟨[], first, lines, rfl, rfl, hentry, hlast, h⟩
    | some e =>
      rw [hentry] at h
      cases hrest : readEntries lines with
      | ok es =>
        simp only [hrest] at h
        cases h
      | error err =>
        -- the error is that of the lines after this one
        simp only [hrest] at h
        cases h
        obtain ⟨front, line, back, rfl, hfront, hline⟩ := ih hrest
        refine ⟨first :: front, line, back, rfl, ?_, hline⟩
        rw [List.all_cons, hentry, hfront]
        rfl

/-- A header that spells nothing, with something after it, is damage. -/
theorem damagedAt_of_header {text : List Char} {header : NumberedLine} {rest : List NumberedLine}
    (h : numberedLines text = header :: rest) (hheader : headerOf header.text = none)
    (hrest : rest ≠ []) : ∃ m, DamagedAt text m := by
  rw [numberedLines_eq, ← List.nil_append (header :: rest)] at h
  obtain ⟨before, after, hlines, -, hline, hbefore, hafter⟩ := numberedFrom_eq_append h
  refine ⟨_, .line hlines hline ?_ ?_ ?_⟩
  · rw [hbefore]
    rfl
  · rw [written_append, hbefore, written_singleton hline, List.map_nil, List.nil_append, spelled,
      hheader]
    rfl
  · rw [hafter]
    simpa using hrest

/-- A line after the header that spells no entry, with something after it, is damage. -/
theorem damagedAt_of_entry {text : List Char} {header line : NumberedLine}
    {front back : List NumberedLine} (h : numberedLines text = header :: (front ++ line :: back))
    (hheader : (headerOf header.text).isSome = true)
    (hfront : (front.all fun l => (entryOf l.text).isSome) = true)
    (hentry : entryOf line.text = none) (hback : back ≠ []) : DamagedAt text line.number := by
  rw [numberedLines_eq, ← List.cons_append] at h
  obtain ⟨before, after, hlines, hnumber, hline, hbefore, hafter⟩ := numberedFrom_eq_append h
  have hspelled : spelled (written before) = true := by
    rw [hbefore, List.map_cons, spelled, hheader, List.all_map]
    exact hfront
  rw [hnumber, Nat.add_comm]
  refine .line hlines hline hspelled ?_ ?_
  · rw [written_append, written_singleton hline]
    rw [hbefore, List.map_cons] at hspelled ⊢
    rw [spelled_cons_concat hspelled, hentry]
    rfl
  · rw [hafter]
    simpa using hback

/-- What is refused as damaged has a line that is damage; it is the one that is named, unless the
header spells nothing. -/
theorem exists_damagedAt_of_parse {text : List Char} {n : Nat}
    (h : parse text = .error (.corrupt n)) : ∃ m, DamagedAt text m ∧
      (version? text = none ∧ n = 1 ∨ version? text = some formatVersion ∧ n = m) := by
  cases hnumbered : numberedLines text with
  | nil =>
    rw [parse, hnumbered] at h
    cases h
  | cons header rest =>
    have hversion := version?_eq hnumbered
    cases hheader : headerOf header.text with
    | none =>
      rw [hheader] at hversion
      rw [parse_of_noHeader hnumbered hheader] at h
      by_cases hlast : rest = []
      · rw [hlast] at h
        cases h
      · simp only [List.isEmpty_iff, if_neg hlast] at h
        injection h with h
        injection h with h
        obtain ⟨m, hm⟩ := damagedAt_of_header hnumbered hheader hlast
        exact ⟨m, hm, Or.inl ⟨hversion, h.symm⟩⟩
    | some version =>
      rw [hheader] at hversion
      by_cases hcurrent : version = formatVersion
      · subst hcurrent
        rw [parse_of_header hnumbered hheader] at h
        obtain ⟨front, line, back, rfl, hfront, hentry, hback, rfl⟩ :=
          exists_unspelled_of_readEntries h
        have hdamaged := damagedAt_of_entry hnumbered (by rw [hheader]; rfl) hfront hentry hback
        exact ⟨_, hdamaged, Or.inr ⟨hversion, rfl⟩⟩
      · simp only [parse, hnumbered, hheader, if_neg hcurrent] at h
        cases h

/-- A text with a line that is damage is refused, if its header is of this version or spells
nothing. -/
theorem parse_of_damagedAt {text : List Char} {n m : Nat} (h : DamagedAt text m)
    (hnamed : version? text = none ∧ n = 1 ∨ version? text = some formatVersion ∧ n = m) :
    parse text = .error (.corrupt n) := by
  cases h with
  | @line before after bad hlines hbad hbefore hspelled hafter =>
    have hnumbered : numberedLines text = numberedFrom 1 before ++
        ⟨1 + before.length, bad⟩ :: numberedFrom (1 + before.length + 1) after := by
      rw [numberedLines_eq, hlines, numberedFrom_append, numberedFrom_cons hbad]
    have hback : numberedFrom (1 + before.length + 1) after ≠ [] := by
      intro hnil
      rw [← texts_numberedFrom (1 + before.length + 1), hnil] at hafter
      exact hafter rfl
    rw [written_append, written_singleton hbad, ← texts_numberedFrom 1] at hspelled
    rw [← texts_numberedFrom 1] at hbefore
    cases hfront : numberedFrom 1 before with
    | nil =>
      -- nothing is written before it, so it should be the header
      rw [hfront] at hnumbered hspelled
      have hheader : headerOf bad = none := by simpa [spelled] using hspelled
      rw [version?_eq hnumbered, hheader] at hnamed
      rw [parse_of_noHeader hnumbered hheader, (hnamed.resolve_right nofun).2]
      exact if_neg (by simpa using hback)
    | cons header front =>
      rw [hfront, List.map_cons] at hspelled hbefore
      rw [hfront] at hnumbered
      rw [spelled_cons_concat hbefore, Option.isSome_eq_false_iff, Option.isNone_iff_eq_none]
        at hspelled
      rw [spelled, Bool.and_eq_true, List.all_map] at hbefore
      rw [version?_eq hnumbered] at hnamed
      rcases hnamed with ⟨hnone, -⟩ | ⟨hversion, rfl⟩
      · rw [hnone] at hbefore
        cases hbefore.1
      · rw [parse_of_header hnumbered hversion, Nat.add_comm before.length 1]
        have hentry : entryOf (NumberedLine.mk (1 + before.length) bad).text = none := hspelled
        exact readEntries_of_unspelled hbefore.2 hentry hback

/-- A text is refused as damaged exactly if one of its lines is damage and its header, if it spells
one, is of this version.  The line that is named is the one that is damage, unless that is the
header itself: then it is the first line of the text. -/
theorem parse_corrupt_iff {text : List Char} {n : Nat} :
    parse text = .error (.corrupt n) ↔ ∃ m, DamagedAt text m ∧
      (version? text = none ∧ n = 1 ∨ version? text = some formatVersion ∧ n = m) := by
  constructor
  · exact exists_damagedAt_of_parse
  · rintro ⟨m, hdamaged, hnamed⟩
    exact parse_of_damagedAt hdamaged hnamed

/-- A text whose header is damaged, two lines below the first. -/
def sunkenHeader : List Char := "\n \ngarbage\n\x7b\"version\":1\x7d\n".toList

/-- It is refused for its first line, which is blank; the damage is on the third. -/
theorem parse_sunken_header : parse sunkenHeader = .error (.corrupt 1) ∧
    DamagedAt sunkenHeader 3 ∧ ¬ DamagedAt sunkenHeader 1 := by
  have hlines : physicalLines sunkenHeader =
      [[], []] ++ "garbage".toList :: ["\x7b\"version\":1\x7d".toList, []] := by decide +kernel
  refine ⟨by decide +kernel, .line hlines (by decide) rfl (by decide +kernel) (by decide), ?_⟩
  rintro hfirst
  generalize hnumber : 1 = n at hfirst
  cases hfirst with
  | @line before after bad hother hbad =>
    -- the line of that number is blank
    rw [List.length_eq_zero_iff.1 (by omega : before.length = 0), hlines] at hother
    injection hother with hblank
    exact hbad hblank.symm

end Lines

end BrokerTopology
