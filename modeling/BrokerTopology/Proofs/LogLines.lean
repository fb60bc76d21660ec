/-
  BrokerTopology.Proofs.LogLines — the lines of a log, whole and torn.

  Every line of a log is a record of its own: it has no line feed inside,
  starts and ends with a brace, and reads back as what it was written
  for.  A part of it reads back as nothing.

  So of a log that breaks off between two characters all entries read
  back whose lines are complete, with the line feed at the end or without
  it, and nothing else is made of what is left.

  Main statements:
    * `entryOf_entryText`, `IsLine.read_part` — a whole line reads back, and a
      part of one does not.
    * `texts_joinLines` — the lines of a text that breaks off.
    * `parse_part` — what is read of a log that breaks off.
    * `parse_fileText` — what is read of a whole log.
    * `seq_lt_of_parse` — whatever is read can be written again.
-/
import BrokerTopology.Log.Lines
import BrokerTopology.Proofs.JsonRoundTrip
import Mathlib.Data.List.DropRight

namespace BrokerTopology

/-! ## §1. Records -/

namespace Record

theorem regular_opMembers (op : DurableOp) : ∀ m ∈ opMembers op, m.2.Regular := by
  cases op <;> simp [opMembers, bindingMembers, writeKind, Json.Regular.str,
    Json.Regular.bool]

theorem regular_writeOp (op : DurableOp) : (writeOp op).Regular :=
  .record (List.forall_mem_cons.2 ⟨.str _, regular_opMembers op⟩)

theorem regular_writeEntry (e : JournalEntry) : (writeEntry e).Regular := by
  refine .record (List.forall_mem_cons.2 ⟨.nat _, List.forall_mem_cons.2 ⟨.array ?_, ?_⟩⟩)
  · intro v hv
    obtain ⟨op, -, rfl⟩ := List.mem_map.1 hv
    exact regular_writeOp op
  · exact List.forall_mem_nil _

end Record

namespace Text

/-- Text that ends and starts with something is not trimmed. -/
theorem trim_of_ends {c d : Char} {text start rest : List Char} (hc : isBlank c = false)
    (hd : isBlank d = false) (hstart : text = c :: rest) (hend : text = start ++ [d]) :
    trim text = text := by
  have hfront : text.dropWhile isBlank = text := by
    rw [hstart, List.dropWhile_cons_of_neg (by rw [hc]; exact Bool.false_ne_true)]
  show (text.dropWhile isBlank).rdropWhile isBlank = text
  rw [hfront, hend, List.rdropWhile_concat_neg _ _ _ (by rw [hd]; exact Bool.false_ne_true)]

/-- Text that starts with something is trimmed at its end only. -/
theorem trim_of_start {c : Char} (hc : isBlank c = false) (rest : List Char) :
    trim (c :: rest) <+: c :: rest := by
  have hfront : (c :: rest).dropWhile isBlank = c :: rest :=
    List.dropWhile_cons_of_neg (by rw [hc]; exact Bool.false_ne_true)
  show ((c :: rest).dropWhile isBlank).rdropWhile isBlank <+: c :: rest
  rw [hfront]
  exact List.rdropWhile_prefix _ _

end Text

/-! ## §2. One line -/

/-- A line of a log: a record, without the line feed at its end. -/
def IsLine (line : List Char) : Prop :=
  ∃ members, (Json.record members).Regular ∧ line = (Json.record members).write

namespace Lines

theorem isLine_entryText (e : JournalEntry) : IsLine (entryText e) :=
  ⟨_, Record.regular_writeEntry e, rfl⟩

theorem regular_writeHeader (version : Nat) : (writeHeader version).Regular :=
  .record (List.forall_mem_cons.2 ⟨.nat _, List.forall_mem_nil _⟩)

theorem isLine_headerText : IsLine headerText :=
  ⟨_, regular_writeHeader formatVersion, rfl⟩

theorem entryOf_entryText {e : JournalEntry} (h : e.seq < Record.seqBound) :
    entryOf (entryText e) = some e := by
  rw [entryOf, entryText, (Record.regular_writeEntry e).read_write]
  exact Record.readEntry_writeEntry h

theorem headerOf_headerText : headerOf headerText = some formatVersion := by
  rw [headerOf, headerText, (regular_writeHeader formatVersion).read_write]
  rfl

end Lines

namespace IsLine

variable {line part : List Char}

theorem newline_not_mem (h : IsLine line) : '\n' ∉ line := by
  obtain ⟨members, hregular, rfl⟩ := h
  exact hregular.newline_not_mem_write

theorem exists_cons (h : IsLine line) : ∃ rest, line = '\x7b' :: rest := by
  obtain ⟨members, -, rfl⟩ := h
  exact Json.write_record_cons members

theorem trim_eq (h : IsLine line) : Text.trim line = line := by
  obtain ⟨rest, hstart⟩ := h.exists_cons
  obtain ⟨members, -, rfl⟩ := h
  obtain ⟨start, hend⟩ := Json.write_record_concat members
  exact Text.trim_of_ends (by decide) (by decide) hstart hend

/-- What is left of a torn line is trimmed to a part of the line again. -/
theorem trim_part (h : IsLine line) (hpart : part <+: line) : Text.trim part <+: part := by
  cases part with
  | nil => exact List.nil_prefix
  | cons c part =>
    obtain ⟨rest, hstart⟩ := h.exists_cons
    rw [hstart] at hpart
    rw [(List.cons_prefix_cons.1 hpart).1]
    exact Text.trim_of_start (by decide) part

/-- A part of a line spells nothing. -/
theorem read_part (h : IsLine line) (hpart : part <+: line) (hne : part ≠ line) :
    Json.read part = none := by
  obtain ⟨members, hregular, rfl⟩ := h
  obtain ⟨rest, hrest⟩ := hpart
  refine Json.read_part hregular hrest ?_
  rintro rfl
  exact hne (by rw [← hrest, List.append_nil])

/-- Trimmed, it still spells nothing. -/
theorem read_trim_part (h : IsLine line) (hpart : part <+: line) (hne : part ≠ line) :
    Json.read (Text.trim part) = none := by
  have htrim := h.trim_part hpart
  refine h.read_part (htrim.trans hpart) ?_
  intro heq
  exact hne (hpart.eq_of_length_le (heq ▸ htrim.length_le))

end IsLine

/-! ## §3. All lines -/

namespace Lines

/-- The lines of a text that are not blank, by themselves. -/
def texts (text : List Char) : List (List Char) := (numberedLines text).map NumberedLine.text

theorem texts_eq (text : List Char) :
    texts text = ((Text.split '\n' text).map Text.trim).filter fun line => !line.isEmpty := by
  have hlines : (Text.split '\n' text).map Text.trim =
      (((Text.split '\n' text).zipIdx 1).map fun numbered =>
        NumberedLine.mk numbered.2 (Text.trim numbered.1)).map NumberedLine.text := by
    conv_lhs => rw [← List.zipIdx_map_fst 1 (Text.split '\n' text)]
    rw [List.map_map, List.map_map]
    rfl
  rw [hlines, List.filter_map]
  rfl

theorem split_joinLines {lines : List (List Char)} (h : ∀ line ∈ lines, '\n' ∉ line)
    (part : List Char) :
    Text.split '\n' (joinLines lines ++ part) = lines ++ Text.split '\n' part := by
  induction lines with
  | nil => rfl
  | cons line lines ih =>
    have htext : joinLines (line :: lines) ++ part = line ++ '\n' :: (joinLines lines ++ part) := by
      simp [joinLines]
    rw [htext, Text.split_append (h line List.mem_cons_self),
      ih fun l hl => h l (List.mem_cons_of_mem _ hl)]
    rfl

/-- Lines as they are read: without the blanks around them, and without those that are blank. -/
def shown (lines : List (List Char)) : List (List Char) :=
  (lines.map Text.trim).filter fun line => !line.isEmpty

theorem shown_append (lines others : List (List Char)) :
    shown (lines ++ others) = shown lines ++ shown others := by
  rw [shown, List.map_append, List.filter_append]
  rfl

theorem shown_of_isLine {lines : List (List Char)} (h : ∀ line ∈ lines, IsLine line) :
    shown lines = lines := by
  have htrim : lines.map Text.trim = lines := by
    conv_rhs => rw [← List.map_id lines]
    exact List.map_congr_left fun line hline => (h line hline).trim_eq
  rw [shown, htrim, List.filter_eq_self]
  intro line hline
  obtain ⟨rest, rfl⟩ := (h line hline).exists_cons
  rfl

theorem texts_pieces {lines : List (List Char)} (hlines : ∀ line ∈ lines, '\n' ∉ line)
    {part : List Char} (hpart : '\n' ∉ part) :
    texts (joinLines lines ++ part) = shown lines ++ shown [part] := by
  rw [texts_eq, split_joinLines hlines, Text.split_of_not_mem hpart, ← shown_append]
  rfl

/-- The lines of a text that breaks off in one of them. -/
theorem texts_joinLines {lines : List (List Char)} (h : ∀ line ∈ lines, IsLine line)
    {part : List Char} (hpart : '\n' ∉ part) :
    texts (joinLines lines ++ part) =
      lines ++ [Text.trim part].filter fun line => !line.isEmpty := by
  rw [texts_pieces (fun line hline => (h line hline).newline_not_mem) hpart, shown_of_isLine h]
  rfl

theorem readEntries_ok {lines : List NumberedLine} {es : List JournalEntry}
    (h : lines.map (fun l => entryOf l.text) = es.map some) : readEntries lines = .ok es := by
  induction lines generalizing es with
  | nil =>
    cases es with
    | nil => rfl
    | cons e es => cases h
  | cons l lines ih =>
    cases es with
    | nil => cases h
    | cons e es =>
      injection h with hfirst hrest
      simp only [readEntries, hfirst, ih hrest]
      rfl

theorem entryOf_entryTexts {entries : List JournalEntry}
    (h : ∀ e ∈ entries, e.seq < Record.seqBound) :
    (entries.map entryText).map entryOf = entries.map some := by
  rw [List.map_map]
  exact List.map_congr_left fun e he => entryOf_entryText (h e he)

/-- Lines of which all are read. -/
theorem parse_of_entries {text : List Char} {lines : List (List Char)}
    {entries : List JournalEntry} (hlines : lines.map entryOf = entries.map some)
    (htexts : texts text = headerText :: lines) : parse text = .ok entries := by
  unfold parse
  unfold texts at htexts
  split
  next heq =>
    rw [heq] at htexts
    cases htexts
  next header rest heq =>
    rw [heq] at htexts
    injection htexts with hheader hrest
    rw [hheader, headerOf_headerText]
    simp only
    refine readEntries_ok ?_
    rw [← hlines, ← hrest, List.map_map]
    rfl

/-- Lines that were written. -/
theorem parse_of_texts {text : List Char} {entries : List JournalEntry}
    (h : ∀ e ∈ entries, e.seq < Record.seqBound)
    (htexts : texts text = headerText :: entries.map entryText) : parse text = .ok entries :=
  parse_of_entries (entryOf_entryTexts h) htexts

/-- Lines of which all are read but the last. -/
theorem parse_of_texts_torn {text torn : List Char} {entries : List JournalEntry}
    (h : ∀ e ∈ entries, e.seq < Record.seqBound) (htorn : entryOf torn = none)
    (htexts : texts text = headerText :: entries.map entryText ++ [torn]) :
    parse text = .ok entries := by
  unfold parse
  unfold texts at htexts
  split
  next heq =>
    rw [heq] at htexts
    cases htexts
  next header rest heq =>
    rw [heq] at htexts
    injection htexts with hheader hrest
    obtain ⟨lines, last, rfl, hlines, hlast⟩ := List.map_eq_append_iff.1 hrest
    obtain ⟨last, rfl, rfl⟩ := List.map_eq_singleton_iff.1 hlast
    rw [hheader, headerOf_headerText]
    simp only
    refine readEntries_append_torn htorn lines entries ?_
    rw [← entryOf_entryTexts h, ← hlines, List.map_map]
    rfl

/-- A header that cannot be read, and nothing else. -/
theorem parse_of_texts_header {text torn : List Char} (htorn : headerOf torn = none)
    (htexts : texts text = [torn]) : parse text = .ok [] := by
  unfold parse
  unfold texts at htexts
  split
  next => rfl
  next header rest heq =>
    rw [heq] at htexts
    injection htexts with hheader hrest
    rw [hheader, htorn, List.map_eq_nil_iff.1 hrest]
    rfl

theorem joinLines_append (lines others : List (List Char)) :
    joinLines (lines ++ others) = joinLines lines ++ joinLines others :=
  List.flatMap_append

theorem joinLines_cons (line : List Char) (lines : List (List Char)) :
    joinLines (line :: lines) = line ++ '\n' :: joinLines lines := by
  simp [joinLines]

/-- A part of a text of lines is made of whole lines and of a part of the next. -/
theorem exists_lines_of_part {lines : List (List Char)} {part : List Char}
    (h : part <+: joinLines lines) :
    part = joinLines lines ∨ ∃ done line left torn, lines = done ++ line :: left ∧
      part = joinLines done ++ torn ∧ torn <+: line := by
  -- by the lines: the part ends in the first one, or goes on with a part of the rest
  induction lines generalizing part with
  | nil => exact Or.inl (List.prefix_nil.1 h)
  | cons line lines ih =>
    rw [joinLines_cons] at h ⊢
    rcases List.prefix_or_prefix_of_prefix h (List.prefix_append line _) with hpart | hline
    · exact Or.inr ⟨[], line, lines, part, rfl, rfl, hpart⟩
    · obtain ⟨more, rfl⟩ := hline
      rw [List.prefix_append_right_inj] at h
      cases more with
      | nil => exact Or.inr ⟨[], line, lines, line, rfl, List.append_nil line, List.prefix_rfl⟩
      | cons c more =>
        obtain ⟨rfl, hmore⟩ := List.cons_prefix_cons.1 h
        rcases ih hmore with rfl | ⟨done, next, left, torn, rfl, rfl, htorn⟩
        · exact Or.inl rfl
        · refine Or.inr ⟨line :: done, next, left, torn, rfl, ?_, htorn⟩
          rw [joinLines_cons, List.append_assoc, List.cons_append]

theorem fileText_eq (entries : List JournalEntry) :
    fileText entries = headerText ++ '\n' :: joinLines (entries.map entryText) :=
  joinLines_cons _ _

theorem isLine_of_mem {entries : List JournalEntry} {line : List Char}
    (h : line ∈ headerText :: entries.map entryText) : IsLine line := by
  rcases List.mem_cons.1 h with rfl | h
  · exact isLine_headerText
  · obtain ⟨e, -, rfl⟩ := List.mem_map.1 h
    exact isLine_entryText e

/-- Where a log may break off: in its header, or in the line of an entry, which may be complete but
for the line feed; or nowhere. -/
inductive Breaks (entries : List JournalEntry) : List Char → Prop
  | whole : Breaks entries (fileText entries)
  | header {torn : List Char} (htorn : torn <+: headerText) : Breaks entries torn
  | entry {done left : List JournalEntry} {e : JournalEntry} {torn : List Char}
      (hentries : entries = done ++ e :: left) (htorn : torn <+: entryText e) :
      Breaks entries (fileText done ++ torn)

theorem breaks_of_part {entries : List JournalEntry} {part : List Char}
    (h : part <+: fileText entries) : Breaks entries part := by
  rcases exists_lines_of_part h with rfl | ⟨done, line, left, torn, hlines, rfl, htorn⟩
  · exact .whole
  · cases done with
    | nil =>
      injection hlines with hline
      subst hline
      exact .header htorn
    | cons first done =>
      injection hlines with hfirst hlines
      obtain ⟨done, others, rfl, rfl, hothers⟩ := List.map_eq_append_iff.1 hlines
      obtain ⟨e, left, rfl, rfl, rfl⟩ := List.map_eq_cons_iff.1 hothers
      rw [← hfirst]
      exact .entry rfl htorn

theorem fileText_concat (done : List JournalEntry) (e : JournalEntry) :
    fileText (done ++ [e]) = fileText done ++ (entryText e ++ ['\n']) := by
  rw [fileText, List.map_append, ← List.cons_append, joinLines_append, fileText]
  simp [joinLines]

theorem fileText_mono {before after : List JournalEntry} (h : before <+: after) :
    fileText before <+: fileText after := by
  obtain ⟨more, rfl⟩ := h
  rw [fileText, fileText, List.map_append, ← List.cons_append, joinLines_append]
  exact List.prefix_append _ _

/-- The lines of a log that breaks off. -/
theorem texts_part (done : List JournalEntry) {line torn : List Char} (hline : IsLine line)
    (htorn : torn <+: line) :
    texts (fileText done ++ torn) = headerText :: done.map entryText ++
      [Text.trim torn].filter fun line => !line.isEmpty :=
  texts_joinLines (fun _ => isLine_of_mem) fun hmem => hline.newline_not_mem (htorn.subset hmem)

/-- A whole log reads back. -/
theorem parse_fileText {entries : List JournalEntry}
    (h : ∀ e ∈ entries, e.seq < Record.seqBound) : parse (fileText entries) = .ok entries := by
  have hlines : ∀ line ∈ headerText :: entries.map entryText, IsLine line :=
    fun _ => isLine_of_mem
  have htexts := texts_joinLines hlines List.not_mem_nil
  rw [List.append_nil] at htexts
  refine parse_of_texts h ?_
  rw [fileText, htexts]
  exact List.append_nil _

/-- What is read if the line that it breaks off in is complete, and if not. -/
theorem parse_broken {done : List JournalEntry} {e : JournalEntry}
    (h : ∀ e' ∈ done ++ [e], e'.seq < Record.seqBound) {torn : List Char}
    (htorn : torn <+: entryText e) :
    parse (fileText done ++ torn) = .ok (if torn = entryText e then done ++ [e] else done) := by
  have hline := isLine_entryText e
  have htexts := texts_part done hline htorn
  split
  next hwhole =>
    refine parse_of_texts h ?_
    obtain ⟨rest, hcons⟩ := hline.exists_cons
    have hfull : (entryText e).isEmpty = false := by rw [hcons]; rfl
    rw [htexts, hwhole, hline.trim_eq, List.filter_cons_of_pos (by simp [hfull])]
    simp
  next hpart =>
    have hdone : ∀ e' ∈ done, e'.seq < Record.seqBound :=
      fun e' he' => h e' (List.mem_append_left _ he')
    -- what is left of the line is blank and no line at all, or it is the last one and torn
    cases hblank : (Text.trim torn).isEmpty with
    | true =>
      refine parse_of_texts hdone ?_
      rw [htexts, List.filter_cons_of_neg (by simp [hblank])]
      exact List.append_nil _
    | false =>
      have hnone : entryOf (Text.trim torn) = none := by
        rw [entryOf, hline.read_trim_part htorn hpart]
        rfl
      refine parse_of_texts_torn hdone hnone ?_
      rw [htexts, List.filter_cons_of_pos (by simp [hblank])]
      rfl

/-- Nothing is read if there is no more than a header. -/
theorem parse_header {torn : List Char} (htorn : torn <+: headerText) : parse torn = .ok [] := by
  have hline := isLine_headerText
  have htexts : texts torn = [Text.trim torn].filter fun line => !line.isEmpty :=
    texts_joinLines (List.forall_mem_nil _) fun hmem => hline.newline_not_mem (htorn.subset hmem)
  by_cases hwhole : torn = headerText
  · refine parse_of_texts (fun _ hmem => nomatch hmem) ?_
    obtain ⟨rest, hcons⟩ := hline.exists_cons
    have hfull : headerText.isEmpty = false := by rw [hcons]; rfl
    rw [htexts, hwhole, hline.trim_eq, List.filter_cons_of_pos (by simp [hfull])]
    rfl
  · cases hblank : (Text.trim torn).isEmpty with
    | true =>
      rw [List.filter_cons_of_neg (by simp [hblank])] at htexts
      rw [parse, List.map_eq_nil_iff.1 htexts]
    | false =>
      have hnone : headerOf (Text.trim torn) = none := by
        rw [headerOf, hline.read_trim_part htorn hwhole]
        rfl
      refine parse_of_texts_header hnone ?_
      rw [htexts, List.filter_cons_of_pos (by simp [hblank])]
      rfl

/-- Of two beginnings of a log, one that goes beyond the other has at least one line more. -/
theorem prefix_done_or_complete {entries before done : List JournalEntry} {e e' : JournalEntry}
    (hbefore : before ++ [e'] <+: entries) (hdone : done ++ [e] <+: entries) :
    before ++ [e'] <+: done ∨ before ++ [e'] = done ++ [e] ∧ before = done ∨
      done ++ [e] <+: before := by
  rcases List.prefix_or_prefix_of_prefix hbefore hdone with hshort | hlong
  · rcases List.prefix_concat_iff.1 hshort with hsame | hshort
    · exact Or.inr (Or.inl ⟨hsame, (List.append_inj' hsame rfl).1⟩)
    · exact Or.inl hshort
  · rcases List.prefix_concat_iff.1 hlong with hsame | hlong
    · exact Or.inr (Or.inl ⟨hsame.symm, (List.append_inj' hsame.symm rfl).1⟩)
    · exact Or.inr (Or.inr hlong)

/-- What is read of a log that breaks off between two characters: no error, and of the entries the
first ones, among them all whose lines are complete but for the line feed. -/
theorem parse_part {entries : List JournalEntry} (h : ∀ e ∈ entries, e.seq < Record.seqBound)
    {part : List Char} (hpart : part <+: fileText entries) :
    ∃ kept, parse part = .ok kept ∧ kept <+: entries ∧
      ∀ before e, before ++ [e] <+: entries → fileText before ++ entryText e <+: part →
        before ++ [e] <+: kept := by
  cases breaks_of_part hpart with
  | whole =>
    exact ⟨entries, parse_fileText h, List.prefix_rfl, fun _ _ hentries _ => hentries⟩
  | header htorn =>
    refine ⟨[], parse_header htorn, List.nil_prefix, ?_⟩
    intro before e _ hcomplete
    have hlength := (hcomplete.trans htorn).length_le
    rw [fileText_eq] at hlength
    simp only [List.length_append, List.length_cons] at hlength
    omega
  | @entry done left e torn hentries htorn =>
    subst hentries
    have hdone : done ++ [e] <+: done ++ e :: left := ⟨left, by simp⟩
    refine ⟨_, parse_broken (fun e' he' => h e' (hdone.subset he')) htorn, ?_, ?_⟩
    · split
      next => exact hdone
      next => exact List.prefix_append _ _
    · intro before e' hbefore hcomplete
      -- either the entry is one of those that are done, or the line that is torn is complete
      rcases prefix_done_or_complete hbefore hdone with hkept | ⟨hsame, rfl⟩ | hmore
      · split
        next => exact hkept.trans (List.prefix_append _ _)
        next => exact hkept
      · have he : e' = e := (List.cons.inj (List.append_inj' hsame rfl).2).1
        subst he
        rw [List.prefix_append_right_inj] at hcomplete
        split
        next => exact List.prefix_rfl
        next hpart => exact absurd (htorn.eq_of_length_le hcomplete.length_le) hpart
      · have hlong := (((fileText_mono hmore).trans (List.prefix_append _ _)).trans
          hcomplete).length_le
        have htorn := htorn.length_le
        rw [fileText_concat] at hlong
        simp only [List.length_append, List.length_singleton] at hlong
        omega

end Lines

/-! ## §4. Numbers that are read -/

namespace Json

theorem lt_of_natBelow? {v : Json} {bound n : Nat} (h : v.natBelow? bound = some n) :
    n < bound := by
  cases v with
  | number value =>
    obtain ⟨-, hlt⟩ := Option.filter_eq_some_iff.1 h
    exact of_decide_eq_true hlt
  | _ => cases h

end Json

namespace Record

theorem seq_lt_of_readEntry {v : Json} {e : JournalEntry} (h : readEntry v = some e) :
    e.seq < seqBound := by
  obtain ⟨fields, -, h⟩ := Option.bind_eq_some_iff.1 h
  split at h
  next seq ops =>
    obtain ⟨n, hseq, h⟩ := Option.bind_eq_some_iff.1 h
    obtain ⟨items, -, h⟩ := Option.bind_eq_some_iff.1 h
    obtain ⟨changes, -, h⟩ := Option.bind_eq_some_iff.1 h
    injection h with h
    rw [← h]
    exact Json.lt_of_natBelow? hseq
  next => cases h

end Record

namespace Lines

theorem seq_lt_of_readEntries {lines : List NumberedLine} {entries : List JournalEntry}
    (h : readEntries lines = .ok entries) : ∀ e ∈ entries, e.seq < Record.seqBound := by
  induction lines generalizing entries with
  | nil =>
    injection h with h
    rw [← h]
    exact List.forall_mem_nil _
  | cons line lines ih =>
    unfold readEntries at h
    split at h
    next first hfirst =>
      obtain ⟨v, -, hread⟩ := Option.bind_eq_some_iff.1 hfirst
      cases hrest : readEntries lines with
      | error e =>
        rw [hrest] at h
        cases h
      | ok rest =>
        rw [hrest] at h
        injection h with h
        rw [← h]
        exact List.forall_mem_cons.2 ⟨Record.seq_lt_of_readEntry hread, ih hrest⟩
    next =>
      split at h
      next =>
        injection h with h
        rw [← h]
        exact List.forall_mem_nil _
      next => cases h

/-- The entries of a text have numbers that can be written again. -/
theorem seq_lt_of_parse {text : List Char} {entries : List JournalEntry}
    (h : parse text = .ok entries) : ∀ e ∈ entries, e.seq < Record.seqBound := by
  unfold parse at h
  split at h
  next =>
    injection h with h
    rw [← h]
    exact List.forall_mem_nil _
  next header rest _ =>
    split at h
    next =>
      split at h
      next =>
        injection h with h
        rw [← h]
        exact List.forall_mem_nil _
      next => cases h
    next =>
      split at h
      next => exact seq_lt_of_readEntries h
      next => cases h

end Lines

end BrokerTopology
