/-
  BrokerTopology.Proofs.LogTails — a log and what stands after its last
  line feed.

  What was written reads back, whatever names and keys are in it.  What
  stands after it, up to the end of the file, is the last line: it is an
  entry if it spells one, with blanks around it or without, and whoever
  wrote it; and if it spells none it is dropped.  Either way it takes
  nothing of the lines before it along.

  Main statements:
    * `texts_tail` — the lines of a log with a tail.
    * `parse_tail` — what is read of it.
-/
import BrokerTopology.Proofs.LogLines

namespace BrokerTopology

namespace Lines

theorem entryOf_nil : entryOf [] = none := rfl

/-- The tail is one more line, unless it is blank. -/
theorem texts_tail (entries : List JournalEntry) {tail : List Char} (htail : '\n' ∉ tail) :
    texts (fileText entries ++ tail) = headerText :: (entries.map entryText ++
      [Text.trim tail].filter fun line => !line.isEmpty) :=
  texts_joinLines (fun _ => isLine_of_mem) htail

/-- A log reads back as it was written, and one with a tail has one entry more exactly if the tail
spells one. -/
theorem parse_tail {entries : List JournalEntry} (h : ∀ e ∈ entries, e.seq < Record.seqBound)
    {tail : List Char} (htail : '\n' ∉ tail) :
    parse (fileText entries) = .ok entries ∧
      parse (fileText entries ++ tail) =
        .ok (match entryOf (Text.trim tail) with
          | some e => entries ++ [e]
          | none => entries) := by
  refine ⟨parse_fileText h, ?_⟩
  have htexts := texts_tail entries htail
  by_cases hblank : Text.trim tail = []
  · -- a blank tail is no line at all
    rw [hblank, entryOf_nil]
    rw [hblank] at htexts
    exact parse_of_texts h (htexts.trans (by rw [List.filter_cons_of_neg (by simp), List.filter_nil,
      List.append_nil]))
  · have hline : ([Text.trim tail].filter fun line => !line.isEmpty) = [Text.trim tail] :=
      List.filter_cons_of_pos (by simpa using hblank)
    rw [hline] at htexts
    cases hentry : entryOf (Text.trim tail) with
    | none => exact parse_of_texts_torn h hentry htexts
    | some e =>
      refine parse_of_entries ?_ htexts
      rw [List.map_append, List.map_append, entryOf_entryTexts h, List.map_singleton,
        List.map_singleton, hentry]

/-- An entry whose names hold a quote, a backslash, a line feed and an escape, under the highest
number there is. -/
def awkward : JournalEntry where
  seq := Record.seqBound - 1
  ops := [.declareQueue "a\"b\\\n" true, .bind ⟨"a\"b\\\n", "", "\x1b é\n"⟩]

theorem parse_tail_of_awkward :
    (∀ e ∈ [awkward], e.seq < Record.seqBound) ∧ '\n' ∉ " [7, []]\r".toList ∧
    entryOf (Text.trim " [7, []]\r".toList) = some ⟨7, []⟩ ∧
    parse (fileText [awkward] ++ " [7, []]\r".toList) = .ok [awkward, ⟨7, []⟩] := by
  have hseq : ∀ e ∈ [awkward], e.seq < Record.seqBound := by decide
  have htail : '\n' ∉ " [7, []]\r".toList := by decide
  have hentry : entryOf (Text.trim " [7, []]\r".toList) = some ⟨7, []⟩ := by decide +kernel
  have hparse := (parse_tail hseq htail).2
  rw [hentry] at hparse
  exact ⟨hseq, htail, hentry, hparse⟩

end Lines

end BrokerTopology
