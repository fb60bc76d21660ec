/-
  BrokerTopology.Proofs.AppendedEntries — what becomes of entries that are
  appended to a file with anything in it.

  Reading forgives the end of a file: a last line that spells nothing is
  dropped, and one that has no line feed yet is read all the same.
  Appending looks only at whether there is something in the file, and
  writes at its end.  The two agree where every line spells what it
  should and ends.  Everywhere else the first entry that is appended is
  lost, and as soon as a second one is there the file is damaged.

  Main statements:
    * `Lines.parse_iff` — which lines are read, and as what.
    * `Lines.parse_appended`, `Lines.parse_spoilt` — what is read after
      lines were put at the end of a text.
    * `JournalFile.load_of_appends` — what is read of a file that entries
      were appended to.
-/
import BrokerTopology.Proofs.JsonPreceded
import BrokerTopology.Proofs.LogFiles

namespace BrokerTopology

namespace Lines

/-! ## §1. Lines that are read -/

/-- What is read of lines.  A header that spells nothing counts as none if it is the only line, and
so does a last line that spells nothing. -/
inductive Reads : List (List Char) → List JournalEntry → Prop
  | nothing : Reads [] []
  | tornHeader {torn : List Char} (htorn : headerOf torn = none) : Reads [torn] []
  | whole {header : List Char} {lines : List (List Char)} {entries : List JournalEntry}
      (hheader : headerOf header = some formatVersion)
      (hlines : lines.map entryOf = entries.map some) : Reads (header :: lines) entries
  | tornLine {header torn : List Char} {lines : List (List Char)} {entries : List JournalEntry}
      (hheader : headerOf header = some formatVersion)
      (hlines : lines.map entryOf = entries.map some) (htorn : entryOf torn = none) :
      Reads (header :: (lines ++ [torn])) entries

theorem readEntries_cases {lines : List NumberedLine} {entries : List JournalEntry}
    (h : readEntries lines = .ok entries) :
    lines.map (fun l => entryOf l.text) = entries.map some ∨
      ∃ before torn, lines = before ++ [torn] ∧ entryOf torn.text = none ∧
        before.map (fun l => entryOf l.text) = entries.map some := by
  induction lines generalizing entries with
  | nil =>
    injection h with h
    exact Or.inl (by rw [← h]; rfl)
  | cons line lines ih =>
    unfold readEntries at h
    split at h
    next e he =>
      cases hrest : readEntries lines with
      | error _ =>
        rw [hrest] at h
        cases h
      | ok rest =>
        rw [hrest] at h
        injection h with h
        subst h
        rcases ih hrest with hall | ⟨before, torn, rfl, htorn, hbefore⟩
        · exact Or.inl (by rw [List.map_cons, List.map_cons, he, hall])
        · refine Or.inr ⟨line :: before, torn, rfl, htorn, ?_⟩
          rw [List.map_cons, List.map_cons, he, hbefore]
    next he =>
      split at h
      next hlast =>
        injection h with h
        subst h
        rw [List.isEmpty_iff.1 hlast]
        exact Or.inr ⟨[], line, rfl, he, rfl⟩
      next => cases h

theorem parse_of_noHeader {text : List Char} {header : NumberedLine} {rest : List NumberedLine}
    (hlines : numberedLines text = header :: rest) (hheader : headerOf header.text = none) :
    parse text = if rest.isEmpty then .ok [] else .error (.corrupt 1) := by
  simp only [parse, hlines, hheader]

theorem parse_of_header {text : List Char} {header : NumberedLine} {rest : List NumberedLine}
    (hlines : numberedLines text = header :: rest)
    (hheader : headerOf header.text = some formatVersion) : parse text = readEntries rest := by
  simp only [parse, hlines, hheader, if_true]

/-- A text is read as some entries if and only if its lines are. -/
theorem parse_iff {text : List Char} {entries : List JournalEntry} :
    parse text = .ok entries ↔ Reads (texts text) entries := by
  unfold texts
  constructor
  · intro h
    unfold parse at h
    split at h
    next hlines =>
      injection h with h
      rw [hlines, ← h]
      exact .nothing
    next header rest hlines =>
      rw [hlines, List.map_cons]
      split at h
      next hheader =>
        split at h
        next hlast =>
          injection h with h
          rw [List.isEmpty_iff.1 hlast, ← h]
          exact .tornHeader hheader
        next => cases h
      next version hheader =>
        split at h
        next hversion =>
          subst hversion
          rcases readEntries_cases h with hall | ⟨before, torn, rfl, htorn, hbefore⟩
          · exact .whole hheader (by rw [List.map_map]; exact hall)
          · rw [List.map_append, List.map_singleton]
            exact .tornLine hheader (by rw [List.map_map]; exact hbefore) htorn
        next => cases h
  · intro h
    cases hnumbered : numberedLines text with
    | nil =>
      rw [hnumbered] at h
      cases h
      rw [parse, hnumbered]
    | cons header rest =>
      generalize hrest : rest.map NumberedLine.text = lines at h
      rw [hnumbered, List.map_cons, hrest] at h
      cases h with
      | tornHeader htorn =>
        rw [parse_of_noHeader hnumbered htorn, List.map_eq_nil_iff.1 hrest]
        rfl
      | whole hheader hlines =>
        rw [parse_of_header hnumbered hheader]
        rw [← hrest, List.map_map] at hlines
        exact readEntries_ok hlines
      | tornLine hheader hlines htorn =>
        rw [parse_of_header hnumbered hheader]
        obtain ⟨before, last, rfl, rfl, hlast⟩ := List.map_eq_append_iff.1 hrest
        obtain ⟨last, rfl, rfl⟩ := List.map_eq_singleton_iff.1 hlast
        rw [List.map_map] at hlines
        exact readEntries_append_torn htorn before entries hlines

/-- Lines of which one spells nothing, and is not the last. -/
inductive Damaged : List (List Char) → Prop
  | header {bad : List Char} {after : List (List Char)} (hbad : headerOf bad = none)
      (hafter : after ≠ []) : Damaged (bad :: after)
  | line {header bad : List Char} {before after : List (List Char)}
      (hheader : headerOf header = some formatVersion) (hbad : entryOf bad = none)
      (hafter : after ≠ []) : Damaged (header :: (before ++ bad :: after))

theorem readEntries_damaged {bad : NumberedLine} {before after : List NumberedLine}
    (hbad : entryOf bad.text = none) (hafter : after ≠ []) :
    ∃ number, readEntries (before ++ bad :: after) = .error (.corrupt number) := by
  induction before with
  | nil =>
    refine ⟨bad.number, ?_⟩
    rw [List.nil_append, readEntries, hbad]
    exact if_neg (by simpa using hafter)
  | cons line before ih =>
    obtain ⟨number, hnumber⟩ := ih
    rw [List.cons_append, readEntries]
    split
    next => exact ⟨number, by rw [hnumber]; rfl⟩
    next => exact ⟨line.number, if_neg (by simp)⟩

theorem corrupt_of_damaged {text : List Char} (h : Damaged (texts text)) :
    ∃ number, parse text = .error (.corrupt number) := by
  unfold texts at h
  cases hnumbered : numberedLines text with
  | nil =>
    rw [hnumbered] at h
    cases h
  | cons header rest =>
    generalize hrest : rest.map NumberedLine.text = lines at h
    rw [hnumbered, List.map_cons, hrest] at h
    cases h with
    | header hbad hafter =>
      refine ⟨1, ?_⟩
      rw [parse_of_noHeader hnumbered hbad]
      refine if_neg ?_
      rw [List.isEmpty_iff]
      rintro rfl
      exact hafter hrest.symm
    | line hheader hbad hafter =>
      rw [parse_of_header hnumbered hheader]
      obtain ⟨before, others, rfl, rfl, hothers⟩ := List.map_eq_append_iff.1 hrest
      obtain ⟨bad, after, rfl, rfl, rfl⟩ := List.map_eq_cons_iff.1 hothers
      refine readEntries_damaged hbad ?_
      rintro rfl
      exact hafter rfl

/-- Without its last line, what is read of lines is read of the lines before. -/
theorem Reads.before {header last : List Char} {lines : List (List Char)}
    {entries : List JournalEntry} (h : Reads (header :: (lines ++ [last])) entries) :
    headerOf header = some formatVersion ∧
      ∃ kept, kept <+: entries ∧ lines.map entryOf = kept.map some := by
  generalize hall : header :: (lines ++ [last]) = all at h
  cases h with
  | nothing => cases hall
  | tornHeader =>
    injection hall with _ hlines
    exact absurd (List.append_eq_nil_iff.1 hlines).2 (List.cons_ne_nil _ _)
  | whole hheader hlines =>
    injection hall with hfirst hrest
    subst hfirst hrest
    rw [List.map_append] at hlines
    obtain ⟨kept, others, rfl, hkept, -⟩ := List.map_eq_append_iff.1 hlines.symm
    exact ⟨hheader, kept, List.prefix_append _ _, hkept.symm⟩
  | tornLine hheader hlines =>
    injection hall with hfirst hrest
    subst hfirst
    obtain ⟨rfl, -⟩ := List.append_inj' hrest rfl
    exact ⟨hheader, entries, List.prefix_rfl, hlines⟩

/-! ## §2. Lines that something stands in front of -/

theorem isBlank_of_isSpace {c : Char} (h : Json.isSpace c = true) : Text.isBlank c = true := by
  simp only [Json.isSpace, Bool.or_eq_true, beq_iff_eq] at h
  rcases h with ((rfl | rfl) | rfl) | rfl <;> decide

/-- With something in front of it that is not blank, an entry's line spells nothing. -/
theorem read_joined {tail : List Char} (htail : tail.dropWhile Text.isBlank ≠ [])
    (e : JournalEntry) : Json.read (tail.dropWhile Text.isBlank ++ entryText e) = none := by
  refine Json.read_preceded (Record.regular_writeEntry e) rfl (by decide)
    (List.suffix_append _ _) ?_
  cases hfront : tail.dropWhile Text.isBlank with
  | nil => exact absurd hfront htail
  | cons c front =>
    have hblank : Text.isBlank c = false := by
      have hhead := List.head?_dropWhile_not Text.isBlank tail
      rw [hfront] at hhead
      exact Bool.eq_false_iff.2 (by simpa using hhead)
    have hspace : Json.isSpace c = false := by
      rw [Bool.eq_false_iff]
      intro hspace
      rw [isBlank_of_isSpace hspace] at hblank
      cases hblank
    rw [List.cons_append, Json.skip_cons hspace]
    intro heq
    have hlength := congrArg List.length heq
    rw [List.length_cons, List.length_append] at hlength
    exact absurd hlength (by show _ + (entryText e).length + 1 ≠ (entryText e).length; omega)

theorem headerOf_entryText (e : JournalEntry) : headerOf (entryText e) = none := by
  rw [headerOf, entryText, (Record.regular_writeEntry e).read_write]
  rfl

/-- Of a line with something in front of it, only the blanks at the very front are trimmed. -/
theorem trim_joined (tail : List Char) {line : List Char} (h : IsLine line) :
    Text.trim (tail ++ line) = tail.dropWhile Text.isBlank ++ line := by
  obtain ⟨rest, hstart⟩ := h.exists_cons
  have hfront : (tail ++ line).dropWhile Text.isBlank = tail.dropWhile Text.isBlank ++ line := by
    rw [List.dropWhile_append]
    split
    next hblank =>
      rw [List.isEmpty_iff.1 hblank, hstart]
      exact List.dropWhile_cons_of_neg (by decide)
    next => rfl
  obtain ⟨members, -, rfl⟩ := h
  obtain ⟨start, hend⟩ := Json.write_record_concat members
  show ((tail ++ _).dropWhile Text.isBlank).rdropWhile Text.isBlank = _
  rw [hfront, hend, ← List.append_assoc, List.rdropWhile_concat_neg _ _ _ (by decide)]

/-! ## §3. Texts that lines are put at the end of -/

/-- A text is made of whole lines and of what stands after the last line feed. -/
theorem exists_lines (text : List Char) :
    ∃ lines tail, (∀ line ∈ lines, '\n' ∉ line) ∧ '\n' ∉ tail ∧ text = joinLines lines ++ tail := by
  induction text using List.reverseRecOn with
  | nil => exact ⟨[], [], List.forall_mem_nil _, List.not_mem_nil, rfl⟩
  | append_singleton text c ih =>
    obtain ⟨lines, tail, hlines, htail, rfl⟩ := ih
    by_cases hc : c = '\n'
    · subst hc
      refine ⟨lines ++ [tail], [], ?_, List.not_mem_nil, ?_⟩
      · intro line hline
        rcases List.mem_append.1 hline with hline | hline
        · exact hlines line hline
        · rw [List.mem_singleton.1 hline]
          exact htail
      · rw [joinLines_append, joinLines_cons, List.append_assoc, List.append_nil]
        rfl
    · refine ⟨lines, tail ++ [c], hlines, ?_, List.append_assoc _ _ _⟩
      rw [List.mem_append, not_or, List.mem_singleton]
      exact ⟨htail, Ne.symm hc⟩

/-- What stands after the last line feed. -/
def tail (text : List Char) : List Char := (Text.split '\n' text).getLastD []

theorem tail_joinLines {lines : List (List Char)} (hlines : ∀ line ∈ lines, '\n' ∉ line)
    {part : List Char} (hpart : '\n' ∉ part) : tail (joinLines lines ++ part) = part := by
  rw [tail, split_joinLines hlines, Text.split_of_not_mem hpart]
  simp

/-- What entries can be put at the end of: a header and entries, all of them spelled out, and no
line begun. -/
structure Takes (text : List Char) : Prop where
  ended : ∀ c ∈ tail text, Text.isBlank c = true
  spelled : ∃ header lines entries, texts text = header :: lines ∧
    headerOf header = some formatVersion ∧ lines.map entryOf = List.map some entries

/-- A line that lacks only its line feed is one that was begun. -/
theorem not_takes_of_unended (entries : List JournalEntry) (e : JournalEntry) :
    ¬ Takes (fileText entries ++ entryText e) := by
  intro htakes
  have htail : tail (joinLines (headerText :: entries.map entryText) ++ entryText e) =
      entryText e :=
    tail_joinLines (fun _ hline => (isLine_of_mem hline).newline_not_mem)
      (isLine_entryText e).newline_not_mem
  obtain ⟨rest, hrest⟩ := (isLine_entryText e).exists_cons
  have hblank := htakes.ended '\x7b'
  rw [fileText, htail, hrest] at hblank
  exact absurd (hblank List.mem_cons_self) (by decide)

/-- The lines of a text that entries were put at the end of: the first one goes on the line that
was begun. -/
theorem texts_appended {lines : List (List Char)} (hlines : ∀ line ∈ lines, '\n' ∉ line)
    {part : List Char} (hpart : '\n' ∉ part) (e : JournalEntry) (news : List JournalEntry) :
    texts (joinLines lines ++ part ++ joinLines ((e :: news).map entryText)) =
      shown lines ++ (part.dropWhile Text.isBlank ++ entryText e) :: news.map entryText := by
  have hline := isLine_entryText e
  have hnews : ∀ line ∈ news.map entryText, IsLine line := by
    intro line hmem
    obtain ⟨e', -, rfl⟩ := List.mem_map.1 hmem
    exact isLine_entryText e'
  have htext : joinLines lines ++ part ++ joinLines ((e :: news).map entryText) =
      joinLines (lines ++ (part ++ entryText e) :: news.map entryText) ++ [] := by
    rw [joinLines_append, joinLines_cons, List.map_cons, joinLines_cons]
    simp
  have hall : ∀ line ∈ lines ++ (part ++ entryText e) :: news.map entryText, '\n' ∉ line := by
    intro line hmem
    rcases List.mem_append.1 hmem with hmem | hmem
    · exact hlines line hmem
    · rcases List.mem_cons.1 hmem with rfl | hmem
      · rw [List.mem_append, not_or]
        exact ⟨hpart, hline.newline_not_mem⟩
      · exact (hnews line hmem).newline_not_mem
  have hjoined : shown [part ++ entryText e] = [part.dropWhile Text.isBlank ++ entryText e] := by
    obtain ⟨rest, hcons⟩ := hline.exists_cons
    rw [shown, List.map_singleton, trim_joined part hline]
    exact List.filter_cons_of_pos (by simp [hcons])
  have hnothing : shown [[]] = [] := rfl
  rw [htext, texts_pieces hall List.not_mem_nil, hnothing, List.append_nil, shown_append,
    ← List.singleton_append, shown_append, hjoined, shown_of_isLine hnews]
  rfl

/-- What is blank is no line. -/
theorem shown_of_blank {part : List Char} (h : ∀ c ∈ part, Text.isBlank c = true) :
    shown [part] = [] := by
  rw [shown, List.map_singleton, Text.trim, List.dropWhile_eq_nil_iff.2 h]
  rfl

/-- What is not blank is one. -/
theorem shown_of_not_blank {part : List Char} (h : part.dropWhile Text.isBlank ≠ []) :
    shown [part] = [Text.trim part] := by
  have htrim : Text.trim part ≠ [] := by
    intro hnil
    have hall : ∀ c ∈ part.dropWhile Text.isBlank, Text.isBlank c = true :=
      List.rdropWhile_eq_nil_iff.1 hnil
    have hhead := hall _ (List.head_mem h)
    rw [List.head_dropWhile_not Text.isBlank h] at hhead
    cases hhead
  rw [shown, List.map_singleton]
  exact List.filter_cons_of_pos (by simpa using htrim)

/-! ## §4. What is read afterwards -/

/-- If what stands where the header should is none, nothing is read as long as no line follows. -/
theorem lost_or_damaged_header {text line : List Char} {entries news : List JournalEntry}
    (htexts : texts text = line :: news.map entryText) (hline : headerOf line = none) :
    (news = [] ∧ ∃ kept, kept <+: entries ∧ parse text = .ok kept) ∨
      ∃ number, parse text = .error (.corrupt number) := by
  cases news with
  | nil => exact Or.inl ⟨rfl, [], List.nil_prefix, parse_of_texts_header hline htexts⟩
  | cons e news =>
    refine Or.inr (corrupt_of_damaged ?_)
    rw [htexts]
    exact .header hline (List.cons_ne_nil _ _)

/-- Entries that are put at the end of a text that takes them are read. -/
theorem parse_appended {text : List Char} {entries : List JournalEntry}
    (h : parse text = .ok entries) (htakes : Takes text) {news : List JournalEntry}
    (hnews : ∀ e ∈ news, e.seq < Record.seqBound) :
    parse (text ++ joinLines (news.map entryText)) = .ok (entries ++ news) := by
  cases news with
  | nil =>
    rw [List.append_nil, List.map_nil]
    exact (congrArg parse (List.append_nil text)).trans h
  | cons e news =>
    obtain ⟨hended, header, spelled, entries', htexts, hheader, hspelled⟩ := htakes
    obtain ⟨lines, part, hlines, hpart, rfl⟩ := exists_lines text
    rw [tail_joinLines hlines hpart] at hended
    rw [texts_pieces hlines hpart, shown_of_blank hended, List.append_nil] at htexts
    -- all lines are spelled out, so what was read of the text is what they spell
    have hsame : entries' = entries := by
      have hparse : parse (joinLines lines ++ part) = .ok entries' := by
        rw [parse_iff, texts_pieces hlines hpart, shown_of_blank hended, List.append_nil, htexts]
        exact .whole hheader hspelled
      rw [h] at hparse
      injection hparse with hparse
      exact hparse.symm
    subst hsame
    rw [parse_iff, texts_appended hlines hpart, List.dropWhile_eq_nil_iff.2 hended, htexts]
    show Reads (header :: (spelled ++ (e :: news).map entryText)) _
    refine .whole hheader ?_
    rw [List.map_append, List.map_append, hspelled, entryOf_entryTexts hnews]

/-- Of entries that are put at the end of a text that does not take them, a single one is lost, and
more are damage. -/
theorem parse_spoilt {text : List Char} {entries : List JournalEntry}
    (h : parse text = .ok entries) (htakes : ¬ Takes text) (e : JournalEntry)
    (news : List JournalEntry) :
    (news = [] ∧ ∃ kept, kept <+: entries ∧
        parse (text ++ joinLines ((e :: news).map entryText)) = .ok kept) ∨
      ∃ number, parse (text ++ joinLines ((e :: news).map entryText)) =
        .error (.corrupt number) := by
  obtain ⟨lines, part, hlines, hpart, rfl⟩ := exists_lines text
  have hafter := texts_appended hlines hpart e news
  have hreads := parse_iff.1 h
  rw [texts_pieces hlines hpart] at hreads
  by_cases hblank : part.dropWhile Text.isBlank = []
  · -- no line was begun, so the first entry has one of its own
    have hended := List.dropWhile_eq_nil_iff.1 hblank
    rw [shown_of_blank hended, List.append_nil] at hreads
    rw [hblank, List.nil_append] at hafter
    generalize hshown : shown lines = before at hreads hafter
    cases hreads with
    | nothing => exact lost_or_damaged_header hafter (headerOf_entryText e)
    | tornHeader htorn =>
      refine Or.inr (corrupt_of_damaged ?_)
      rw [hafter]
      exact .header htorn (List.cons_ne_nil _ _)
    | whole hheader hspelled =>
      refine absurd ⟨?_, _, _, _, ?_, hheader, hspelled⟩ htakes
      · rw [tail_joinLines hlines hpart]
        exact hended
      · rw [texts_pieces hlines hpart, shown_of_blank hended, List.append_nil, hshown]
    | tornLine hheader _ htorn =>
      refine Or.inr (corrupt_of_damaged ?_)
      rw [hafter, List.cons_append, List.append_assoc]
      exact .line hheader htorn (List.cons_ne_nil _ _)
  · -- the first entry goes on the line that was begun, and together they spell nothing
    have hjoined := read_joined hblank e
    rw [shown_of_not_blank hblank] at hreads
    generalize shown lines = before at hreads hafter
    cases before with
    | nil => exact lost_or_damaged_header hafter (by rw [headerOf, hjoined]; rfl)
    | cons header before =>
      obtain ⟨hheader, kept, hkept, hspelled⟩ := hreads.before
      have hbad : entryOf (part.dropWhile Text.isBlank ++ entryText e) = none := by
        rw [entryOf, hjoined]
        rfl
      cases news with
      | nil =>
        refine Or.inl ⟨rfl, kept, hkept, ?_⟩
        rw [parse_iff, hafter]
        exact .tornLine hheader hspelled hbad
      | cons e' news =>
        refine Or.inr (corrupt_of_damaged ?_)
        rw [hafter]
        exact .line hheader hbad (List.cons_ne_nil _ _)

end Lines

/-! ## §5. Files -/

namespace JournalFile

/-- Append entries one after the other, as long as that works. -/
def appendAll (f : JournalFile) :
    List JournalEntry → Disk → Outcome (JournalFile × Disk) JournalError Unit
  | [], d => (.ok (), f, d)
  | e :: entries, d =>
    match f.append e d with
    | (.error e, f, d) => (.error e, f, d)
    | (.ok (), f, d) => f.appendAll entries d

variable {f : JournalFile} {d : Disk} {number : Nat} {text : Option (List Char)}

/-- Every entry is put at the end of the text, and none fails. -/
theorem Holds.appendAll (h : f.Holds d number text) (e : JournalEntry)
    (news : List JournalEntry) :
    ∃ f' after, f.appendAll (e :: news) d = (.ok (), f', after) ∧
      f'.Holds after number
        (some (f.base text ++ Lines.joinLines ((e :: news).map Lines.entryText))) := by
  obtain ⟨f', after, happend, -, hafter⟩ := h.append e
  -- by the entries, for any file: what was appended before is part of the text already
  induction news generalizing f d text e f' after with
  | nil =>
    refine ⟨f', after, ?_, hafter⟩
    rw [JournalFile.appendAll, happend]
    rfl
  | cons e' news ih =>
    obtain ⟨f'', later, happend', -, hlater⟩ := hafter.append e'
    obtain ⟨g, last, happends, hlast⟩ := ih hafter e' f'' later happend' hlater
    refine ⟨g, last, ?_, ?_⟩
    · rw [JournalFile.appendAll, happend]
      exact happends
    · rw [base_of_ne_nil (by simp [Lines.joinLines]), List.append_assoc,
        ← Lines.joinLines_append] at hlast
      exact hlast

theorem parse_base {entries : List JournalEntry}
    (h : Lines.parse (text.getD []) = .ok entries) : Lines.parse (f.base text) = .ok entries := by
  unfold base
  split
  next hempty =>
    rw [hempty.2, Lines.parse_nil] at h
    rw [← h]
    exact Lines.parse_fileText (List.forall_mem_nil _)
  next => exact h

/-- What is read of a file that entries were appended to, whatever was in it, as long as it could be
read.  Appending never fails.  If the lines that were there are all spelled out and the last one is
ended, or if there was nothing and the file was not open yet, all entries are read.  In every other
case a single entry is lost, and where there are more the file is damaged. -/
theorem load_of_appends (h : f.Holds d number text) {entries : List JournalEntry}
    (hload : f.load d = .ok entries) (e : JournalEntry) (news : List JournalEntry)
    (hnews : ∀ e' ∈ e :: news, e'.seq < Record.seqBound) :
    ∃ f' after, f.appendAll (e :: news) d = (.ok (), f', after) ∧
      (Lines.Takes (f.base text) → f'.load after = .ok (entries ++ e :: news)) ∧
      (¬ Lines.Takes (f.base text) →
        (news = [] ∧ ∃ kept, kept <+: entries ∧ f'.load after = .ok kept) ∨
          ∃ line, f'.load after = .error (.corrupt line)) := by
  obtain ⟨f', after, happends, hafter⟩ := h.appendAll e news
  rw [h.load] at hload
  have hparse := parse_base (f := f) hload
  refine ⟨f', after, happends, ?_, ?_⟩
  · intro htakes
    rw [hafter.load]
    exact Lines.parse_appended hparse htakes hnews
  · intro htakes
    rw [hafter.load]
    exact Lines.parse_spoilt hparse htakes e news

/-- The log of a disk that has nothing else on it, just taken hold of. -/
def held : JournalFile where
  directory := "/"
  lock := { file := 2, path := JournalLock.pathIn "/" }

/-- A disk with nothing on it but a log with this text and the lock on it. -/
def heldDisk (whole : List Char) : Disk :=
  (acquire { pid := 1, now := 0 } "/" (diskOf (encode whole))).2

theorem holds_held (whole : List Char) :
    held.Holds (heldDisk whole) Disk.root (some whole) := by
  have hoffers := offers_diskOf whole
  obtain ⟨f, after, hacquire, -, hholds⟩ :=
    acquire_of_offers hoffers.hosts.makeDirectories hoffers { pid := 1, now := 0 }
  have hheld : acquire { pid := 1, now := 0 } "/" (diskOf (encode whole)) =
      (.ok held, heldDisk whole) := rfl
  rw [hheld] at hacquire
  cases hacquire
  exact hholds

/-- A log of one entry, whose line is complete but for the line feed. -/
def unended : List Char := Lines.fileText [] ++ Lines.entryText accented

theorem load_of_appends_of_unended :
    held.Holds (heldDisk unended) Disk.root (some unended) ∧
    held.load (heldDisk unended) = .ok [accented] ∧
    (∀ e ∈ [accented], e.seq < Record.seqBound) ∧
    ¬ Lines.Takes (held.base (some unended)) ∧
    ∃ f' after, held.appendAll [accented] (heldDisk unended) = (.ok (), f', after) ∧
      ((∃ kept, kept <+: [accented] ∧ f'.load after = .ok kept) ∨
        ∃ line, f'.load after = .error (.corrupt line)) := by
  have hload : held.load (heldDisk unended) = .ok [accented] := by
    rw [(holds_held unended).load]
    decide +kernel
  have hnews : ∀ e ∈ [accented], e.seq < Record.seqBound := by decide
  have htakes : ¬ Lines.Takes (held.base (some unended)) := by
    rw [base_of_ne_nil (by simp [unended, Lines.fileText_eq])]
    exact Lines.not_takes_of_unended [] accented
  obtain ⟨f', after, happends, -, hlost⟩ :=
    load_of_appends (holds_held unended) hload accented [] hnews
  exact ⟨holds_held unended, hload, hnews, htakes, f', after, happends,
    (hlost htakes).imp_left And.right⟩

/-- A log that broke off in its first line after the header. -/
def broken : List Char := Lines.fileText [] ++ (Lines.entryText accented).take 9

/-- The log is read and every entry is appended without an error.  One entry is lost, and with a
second one the log cannot be read any more. -/
theorem append_to_broken_log :
    let once := held.appendAll [accented] (heldDisk broken)
    let twice := held.appendAll [accented, accented] (heldDisk broken)
    held.load (heldDisk broken) = .ok [] ∧
    once.1 = .ok () ∧ once.2.1.load once.2.2 = .ok [] ∧
    once.2.1.load once.2.2 ≠ .ok ([] ++ [accented]) ∧
    twice.1 = .ok () ∧ twice.2.1.load twice.2.2 = .error (.corrupt 2) := by
  intro once twice
  have hheld := holds_held broken
  obtain ⟨f₁, d₁, honce, hone⟩ := hheld.appendAll accented []
  obtain ⟨f₂, d₂, htwice, htwo⟩ := hheld.appendAll accented [accented]
  have hload : held.load (heldDisk broken) = .ok [] := by
    rw [hheld.load]
    decide +kernel
  have hlost : f₁.load d₁ = .ok [] := by
    rw [hone.load]
    decide +kernel
  have hdamaged : f₂.load d₂ = .error (.corrupt 2) := by
    rw [htwo.load]
    decide +kernel
  have honce : once = (.ok (), f₁, d₁) := honce
  have htwice : twice = (.ok (), f₂, d₂) := htwice
  rw [honce, htwice]
  exact ⟨hload, rfl, hlost, by rw [hlost]; decide, rfl, hdamaged⟩

end JournalFile

end BrokerTopology
