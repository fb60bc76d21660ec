/-
  BrokerTopology.Proofs.TornLines — a line that was written in part.

  A line of a log that breaks off before its end spells neither a header
  nor an entry, wherever it breaks off: it may be in the middle of a
  number, of an escape or of a name with braces and quotes in it.

  So wherever such a line stands in a text, either the text is refused or
  the line makes no difference to what is read.  Nothing is ever read of
  it.

  Main statements:
    * `texts_intercalate` — the lines of a text are those of its parts.
    * `Reads.without` — a line that spells nothing makes no difference.
    * `torn_line_never_read` — what becomes of a line written in part.
-/
import BrokerTopology.Proofs.AppendedEntries

namespace BrokerTopology

namespace Lines

/-! ## §1. Texts made of parts -/

theorem split_append_newline (text more : List Char) :
    Text.split '\n' (text ++ '\n' :: more) = Text.split '\n' text ++ Text.split '\n' more := by
  obtain ⟨lines, tail, hlines, htail, rfl⟩ := exists_lines text
  rw [List.append_assoc, split_joinLines hlines, split_joinLines hlines, Text.split_append htail,
    Text.split_of_not_mem htail, List.append_assoc, List.singleton_append]

theorem texts_append_newline (text more : List Char) :
    texts (text ++ '\n' :: more) = texts text ++ texts more := by
  rw [texts_eq, texts_eq, texts_eq, split_append_newline, List.map_append, List.filter_append]

/-- The lines of a text are those of its parts, if line feeds stand between them. -/
theorem texts_intercalate (parts : List (List Char)) :
    texts (['\n'].intercalate parts) = parts.flatMap texts := by
  induction parts with
  | nil => rfl
  | cons part parts ih =>
    cases parts with
    | nil => simp
    | cons next parts =>
      rw [List.intercalate_cons_cons, List.append_assoc, List.singleton_append,
        texts_append_newline, ih]
      exact List.flatMap_cons.symm

/-- What stands between two line feeds is one line, unless it is blank. -/
theorem texts_of_not_mem {part : List Char} (hpart : '\n' ∉ part) :
    texts part = [Text.trim part].filter fun line => !line.isEmpty := by
  rw [texts_eq, Text.split_of_not_mem hpart, List.map_singleton]

/-! ## §2. Lines that spell nothing -/

/-- If lines are read, a line that spells neither a header nor an entry is the last of them, and
makes no difference. -/
theorem Reads.without {before after : List (List Char)} {torn : List Char}
    {entries : List JournalEntry} (h : Reads (before ++ torn :: after) entries)
    (hheader : headerOf torn = none) (hentry : entryOf torn = none) :
    Reads (before ++ after) entries := by
  -- among lines that are all entries there is none that spells nothing
  have hspells : ∀ {lines : List (List Char)} {es : List JournalEntry},
      lines.map entryOf = es.map some → torn ∉ lines := by
    intro lines es hlines hmem
    have hnone := List.mem_map_of_mem (f := entryOf) hmem
    rw [hlines, hentry] at hnone
    obtain ⟨_, -, hsome⟩ := List.mem_map.1 hnone
    cases hsome
  generalize hall : before ++ torn :: after = all at h
  cases h with
  | nothing => exact absurd hall (by simp)
  | tornHeader =>
    obtain ⟨rfl, hrest⟩ | ⟨rfl, hrest⟩ := List.append_eq_singleton_iff.1 hall
    · injection hrest with _ hafter
      rw [hafter]
      exact .nothing
    · cases hrest
  | @whole header lines _ hversion hlines =>
    cases before with
    | nil =>
      injection hall with hfirst _
      rw [← hfirst, hheader] at hversion
      cases hversion
    | cons first before =>
      injection hall with _ hrest
      exact absurd (hrest ▸ by simp) (hspells hlines)
  | @tornLine header last lines _ hversion hlines hlast =>
    cases before with
    | nil =>
      injection hall with hfirst _
      rw [← hfirst, hheader] at hversion
      cases hversion
    | cons first before =>
      injection hall with hfirst hrest
      subst hfirst
      cases after using List.reverseRecOn with
      | nil =>
        obtain ⟨rfl, -⟩ := List.append_inj' hrest rfl
        rw [List.append_nil]
        exact .whole hversion hlines
      | append_singleton after next =>
        have hrest : (before ++ torn :: after) ++ [next] = lines ++ [last] := by
          rw [← hrest, List.append_assoc]
          rfl
        obtain ⟨rfl, -⟩ := List.append_inj' hrest rfl
        exact absurd (by simp) (hspells hlines)

/-! ## §3. Lines written in part -/

/-- What is written to a log as one line. -/
inductive WrittenLine where
  | header
  | entry (e : JournalEntry)
deriving DecidableEq

/-- Its text, without the line feed. -/
def WrittenLine.text : WrittenLine → List Char
  | header => headerText
  | entry e => entryText e

theorem WrittenLine.isLine (line : WrittenLine) : IsLine line.text := by
  cases line with
  | header => exact isLine_headerText
  | entry e => exact isLine_entryText e

/-- A line that was written in part, wherever it breaks off, spells neither a header nor an entry.
Wherever it stands in a text, the text is refused or is read as if it did not stand there. -/
theorem torn_line_never_read {line : WrittenLine} {part : List Char} (hpart : part <+: line.text)
    (hne : part ≠ line.text) :
    headerOf (Text.trim part) = none ∧ entryOf (Text.trim part) = none ∧
      ∀ before after entries, parse (['\n'].intercalate (before ++ part :: after)) = .ok entries →
        parse (['\n'].intercalate (before ++ after)) = .ok entries := by
  have hread := line.isLine.read_trim_part hpart hne
  have hheader : headerOf (Text.trim part) = none := by
    rw [headerOf, hread]
    rfl
  have hentry : entryOf (Text.trim part) = none := by
    rw [entryOf, hread]
    rfl
  refine ⟨hheader, hentry, ?_⟩
  intro before after entries hparse
  have hpiece := texts_of_not_mem fun hmem => line.isLine.newline_not_mem (hpart.subset hmem)
  rw [parse_iff, texts_intercalate, List.flatMap_append] at hparse ⊢
  rw [List.flatMap_cons, hpiece] at hparse
  by_cases hblank : Text.trim part = []
  · -- of a blank part nothing is left
    rw [hblank] at hparse
    exact hparse
  · rw [List.filter_cons_of_pos (by simpa using hblank)] at hparse
    exact hparse.without hheader hentry

/-- An entry with a name that looks like the end of the entry. -/
def lookalike : JournalEntry where
  seq := 12
  ops := [.declareQueue "\",\"auto_delete\":true\x7d]\x7d " true]

theorem torn_line_never_read_of_lookalike :
    (entryText lookalike).take 74 <+: (WrittenLine.entry lookalike).text ∧
    (entryText lookalike).take 74 ≠ (WrittenLine.entry lookalike).text ∧
    headerOf (Text.trim ((entryText lookalike).take 74)) = none ∧
    entryOf (Text.trim ((entryText lookalike).take 74)) = none ∧
    ∀ before after entries,
      parse (['\n'].intercalate (before ++ (entryText lookalike).take 74 :: after)) =
        .ok entries → parse (['\n'].intercalate (before ++ after)) = .ok entries :=
  have hpart : (entryText lookalike).take 74 <+: (WrittenLine.entry lookalike).text :=
    List.take_prefix 74 _
  have hne : (entryText lookalike).take 74 ≠ (WrittenLine.entry lookalike).text := by
    decide +kernel
  ⟨hpart, hne, torn_line_never_read hpart hne⟩

end Lines

end BrokerTopology
