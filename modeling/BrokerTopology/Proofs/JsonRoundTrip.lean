/-
  BrokerTopology.Proofs.JsonRoundTrip — what is written reads back.

  The documents that records are written as are `Regular`: their texts
  are texts, their numbers are whole, and their keys are texts.  Such a
  document reads back as itself, whatever names it holds, and it is on
  one line.

  Main statements:
    * `readText_escapeAll` — a text reads back, with its control
      characters and those beyond ASCII.
    * `Regular.readsBack` — a document reads back, whatever follows
      it.
    * `Regular.read_write`, `read_part` — the whole reads back,
      and a part of an object does not.
    * `newline_not_mem_write` — a document is on one line.
-/
import BrokerTopology.Json.Writer
import BrokerTopology.Proofs.JsonReading
import Mathlib.Tactic.SplitIfs

namespace BrokerTopology

theorem Hex.value?_digit : ∀ n < 16, Hex.value? (Hex.digit n) = some n := by
  decide

namespace Json

/-! ## §1. Texts -/

/-- Four digits write a code unit. -/
theorem unit?_fixed {n : Nat} (h : n < 0x10000) :
    ∃ a b c d, Hex.fixed 4 n = [a, b, c, d] ∧ unit? a b c d = some n := by
  refine ⟨_, _, _, _, rfl, ?_⟩
  have hvalue : ∀ k : Nat, Hex.value? (Hex.digit (k % 16)) = some (k % 16) :=
    fun k => Hex.value?_digit _ (Nat.mod_lt k (by decide))
  unfold unit?
  rw [hvalue, hvalue, hvalue, hvalue]
  show some _ = some n
  congr 1
  omega

/-- A character is escaped by another, or by its number, or stands for itself. -/
theorem escape_cases (c : Char) :
    (∃ d, escape c = ['\\', d] ∧ d ≠ 'u' ∧ 0x20 ≤ d.toNat ∧ shortEscape? d = some c) ∨
      (c.toNat < 0x20 ∧ escape c = '\\' :: 'u' :: Hex.fixed 4 c.toNat) ∨
      (c ≠ '"' ∧ c ≠ '\\' ∧ ¬ c.toNat < 0x20 ∧ escape c = [c]) := by
  unfold escape
  split_ifs with hquote hescape hback htab hline hfeed hreturn hcontrol
  · exact Or.inl ⟨'"', rfl, by decide, by decide, by rw [hquote]; rfl⟩
  · exact Or.inl ⟨'\\', rfl, by decide, by decide, by rw [hescape]; rfl⟩
  · exact Or.inl ⟨'b', rfl, by decide, by decide, by rw [hback]; rfl⟩
  · exact Or.inl ⟨'t', rfl, by decide, by decide, by rw [htab]; rfl⟩
  · exact Or.inl ⟨'n', rfl, by decide, by decide, by rw [hline]; rfl⟩
  · exact Or.inl ⟨'f', rfl, by decide, by decide, by rw [hfeed]; rfl⟩
  · exact Or.inl ⟨'r', rfl, by decide, by decide, by rw [hreturn]; rfl⟩
  · exact Or.inr (Or.inl ⟨hcontrol, rfl⟩)
  · exact Or.inr (Or.inr ⟨hquote, hescape, hcontrol, rfl⟩)

theorem readUnits_escape (c : Char) (rest : List Char) :
    readUnits (escape c ++ rest) = (readUnits rest).map (withUnit c.toNat) := by
  obtain ⟨d, hescape, hd, -, hshort⟩ | ⟨hcontrol, hescape⟩ | ⟨hquote, hslash, hcontrol, hescape⟩ :=
    escape_cases c
  · rw [hescape]
    show readUnits ('\\' :: d :: rest) = _
    rw [readUnits_short hd, hshort]
    rfl
  · obtain ⟨x, y, z, w, hfixed, hunit⟩ := unit?_fixed (Nat.lt_trans hcontrol (by decide))
    rw [hescape, hfixed]
    show readUnits ('\\' :: 'u' :: x :: y :: z :: w :: rest) = _
    rw [readUnits_unicode, hunit]
    rfl
  · rw [hescape]
    exact readUnits_plain hquote hslash hcontrol rest

theorem readUnits_escapeAll (cs rest : List Char) :
    readUnits (escapeAll cs ++ '"' :: rest) = some (cs.map Char.toNat, rest) := by
  induction cs with
  | nil => exact readUnits_quote rest
  | cons c cs ih =>
    rw [escapeAll, List.append_assoc, readUnits_escape, ih]
    rfl

/-- A character is no surrogate. -/
theorem not_surrogate (c : Char) : ¬(0xD800 ≤ c.toNat ∧ c.toNat ≤ 0xDFFF) := by
  rintro ⟨hlow, hhigh⟩
  rcases c.valid with hvalid | ⟨hvalid, -⟩
  · exact absurd hvalid (Nat.not_lt.2 hlow)
  · exact absurd hvalid (Nat.not_lt.2 hhigh)

theorem joinUnits_cons {u : Nat} (hu : ¬(0xD800 ≤ u ∧ u ≤ 0xDFFF)) (us : List Nat) :
    joinUnits (u :: us) = (joinUnits us).map (Char.ofNat u :: ·) := by
  cases us with
  | nil =>
    show (if _ then none else some [Char.ofNat u]) = some [Char.ofNat u]
    rw [if_neg hu]
  | cons v us => rw [joinUnits, if_neg hu]

theorem joinUnits_chars (cs : List Char) : joinUnits (cs.map Char.toNat) = some cs := by
  induction cs with
  | nil => rfl
  | cons c cs ih =>
    rw [List.map_cons, joinUnits_cons (not_surrogate c), ih, Option.map_some, Char.ofNat_toNat]

/-- Every text reads back. -/
theorem readText_escapeAll (s : String) (rest : List Char) :
    readText (escapeAll s.toList ++ '"' :: rest) = some (some s, rest) := by
  rw [readText, readUnits_escapeAll]
  show some ((joinUnits (s.toList.map Char.toNat)).map String.ofList, rest) = _
  rw [joinUnits_chars, Option.map_some, String.ofList_toList]

theorem writeText_append (s : String) (rest : List Char) :
    writeText (some s) ++ rest = '"' :: (escapeAll s.toList ++ '"' :: rest) := by
  simp [writeText]

theorem readKey_writeText (key : String) (rest : List Char) :
    readKey (writeText (some key) ++ ':' :: rest) = some (some key, rest) := by
  unfold readKey
  rw [writeText_append, skip_cons (by decide)]
  simp only [readText_escapeAll]
  rw [skip_cons (by decide)]
  rfl

/-! ## §2. Numbers -/

/-- What may stand after a number, so that it ends there. -/
def Ends (rest : List Char) : Prop :=
  ∀ c ∈ rest.head?, c.isDigit = false ∧ c ≠ '.' ∧ c ≠ 'e' ∧ c ≠ 'E'

theorem ends_nil : Ends [] := fun _ hc => nomatch hc

theorem ends_cons {c : Char} (h : c.isDigit = false ∧ c ≠ '.' ∧ c ≠ 'e' ∧ c ≠ 'E')
    (rest : List Char) : Ends (c :: rest) := by
  intro d hd
  rw [List.head?_cons, Option.mem_some_iff] at hd
  exact hd ▸ h

theorem spanDigits_of_digits {digits rest : List Char} (h : ∀ c ∈ digits, c.isDigit = true)
    (hrest : Ends rest) : spanDigits (digits ++ rest) = (digits, rest) := by
  induction digits with
  | nil =>
    cases rest with
    | nil => rfl
    | cons c rest =>
      rw [List.nil_append, spanDigits, (hrest c rfl).1]
      rfl
  | cons c digits ih =>
    rw [List.cons_append, spanDigits, h c List.mem_cons_self,
      ih fun d hd => h d (List.mem_cons_of_mem _ hd)]
    rfl

theorem digitChar_ne_zero : ∀ n < 10, 0 < n → Nat.digitChar n ≠ '0' := by
  decide

/-- A number other than zero is written without a zero in front. -/
theorem head_toDigits {n : Nat} (hn : 0 < n) :
    ∃ c rest, Nat.toDigits 10 n = c :: rest ∧ c ≠ '0' := by
  induction n using Nat.strongRecOn with
  | ind n ih =>
    by_cases hsmall : n < 10
    · exact ⟨_, [], Nat.toDigits_of_lt_base hsmall, digitChar_ne_zero n hsmall hn⟩
    · obtain ⟨c, rest, hdigits, hc⟩ := ih (n / 10) (by omega) (by omega)
      refine ⟨c, rest ++ [(n % 10).digitChar], ?_, hc⟩
      rw [Nat.toDigits_of_base_le (by decide) (Nat.not_lt.1 hsmall), hdigits, List.cons_append]

theorem whole?_toDigits (n : Nat) : whole? (Nat.toDigits 10 n) = some n := by
  have hvalue : Nat.ofDigitChars 10 (Nat.toDigits 10 n) 0 = n := Nat.ofDigitChars_ten_toDigits
  rcases Nat.eq_zero_or_pos n with rfl | hn
  · rfl
  · obtain ⟨c, rest, hdigits, hc⟩ := head_toDigits hn
    rw [hdigits] at hvalue ⊢
    unfold whole?
    split
    next heq => cases heq
    next heq => exact absurd (List.cons.inj heq).1 hc
    next => rw [hvalue]

theorem isDigit_of_mem_toDigits {n : Nat} {c : Char} (hc : c ∈ Nat.toDigits 10 n) :
    c.isDigit = true :=
  Nat.isDigit_of_mem_toDigits (by decide) (by decide) hc

theorem readNumber_toDigits (n : Nat) {rest : List Char} (hrest : Ends rest) :
    readNumber (Nat.toDigits 10 n ++ rest) = some (.ofNat n, rest) := by
  have hwhole : readWhole (Nat.toDigits 10 n ++ rest) = some (n, rest) := by
    rw [readWhole_eq, spanDigits_of_digits (fun _ => isDigit_of_mem_toDigits) hrest,
      whole?_toDigits]
    rfl
  have hfraction : readFraction rest = some (none, rest) :=
    readFraction_other fun hpoint => (hrest '.' hpoint).2.1 rfl
  have hexponent : readExponent rest = some (none, rest) := by
    cases rest with
    | nil => rfl
    | cons c rest =>
      obtain ⟨-, -, he, hE⟩ := hrest c rfl
      exact readExponent_other (not_or.2 ⟨he, hE⟩) rest
  have hunsigned : readUnsigned false (Nat.toDigits 10 n ++ rest) = some (.ofNat n, rest) := by
    unfold readUnsigned
    rw [hwhole]
    show (readFraction rest).bind _ = _
    rw [hfraction]
    show (readExponent rest).bind _ = _
    rw [hexponent]
    rfl
  cases hfirst : Nat.toDigits 10 n with
  | nil => exact absurd hfirst Nat.toDigits_ne_nil
  | cons c digits =>
    have hc : c ≠ '-' := by
      rintro rfl
      have hdigit : '-'.isDigit = true :=
        isDigit_of_mem_toDigits (by rw [hfirst]; exact List.mem_cons_self)
      cases hdigit
    rw [List.cons_append, readNumber_unsigned hc, ← List.cons_append, ← hfirst, hunsigned]

/-! ## §3. Documents -/

/-- The documents that records are written as: their texts and keys are texts, and their numbers
are whole. -/
inductive Regular : Json → Prop
  | null : Regular .null
  | bool (b : Bool) : Regular (.bool b)
  | nat (n : Nat) : Regular (.nat n)
  | str (s : String) : Regular (.str s)
  | array {items : List Json} (h : ∀ v ∈ items, Regular v) : Regular (.array items)
  | record {members : List (String × Json)} (h : ∀ m ∈ members, Regular m.2) :
      Regular (.record members)

theorem isSpace_of_isDigit {c : Char} (h : c.isDigit = true) : isSpace c = false := by
  rw [Bool.eq_false_iff]
  intro hspace
  simp only [isSpace, Bool.or_eq_true, beq_iff_eq] at hspace
  obtain ((rfl | rfl) | rfl) | rfl := hspace <;> cases h

theorem write_nat (n : Nat) : (nat n).write = Nat.toDigits 10 n := by
  simp [nat, Number.ofNat, write, writeNumber]

theorem write_str (s : String) : (str s).write = writeText (some s) := by
  simp [str, write]

/-- What a document starts with. -/
theorem Regular.write_cons {v : Json} (h : v.Regular) :
    ∃ c rest, v.write = c :: rest ∧ isSpace c = false ∧ c ≠ ']' := by
  cases h with
  | null => exact ⟨'n', _, rfl, by decide, by decide⟩
  | bool b =>
    cases b with
    | false => exact ⟨'f', _, rfl, by decide, by decide⟩
    | true => exact ⟨'t', _, rfl, by decide, by decide⟩
  | nat n =>
    rw [write_nat]
    cases hfirst : Nat.toDigits 10 n with
    | nil => exact absurd hfirst Nat.toDigits_ne_nil
    | cons c digits =>
      have hdigit : c.isDigit = true :=
        isDigit_of_mem_toDigits (by rw [hfirst]; exact List.mem_cons_self)
      refine ⟨c, digits, rfl, isSpace_of_isDigit hdigit, ?_⟩
      rintro rfl
      cases hdigit
  | str s => exact ⟨'"', _, rfl, by decide, by decide⟩
  | @array items h =>
    cases items with
    | nil => exact ⟨'[', _, rfl, by decide, by decide⟩
    | cons item items => exact ⟨'[', _, rfl, by decide, by decide⟩
  | @record members h =>
    cases members with
    | nil => exact ⟨'\x7b', _, rfl, by decide, by decide⟩
    | cons m members => exact ⟨'\x7b', _, rfl, by decide, by decide⟩

/-- A document reads back, with enough fuel and whatever follows, as long as it is no part of a
number. -/
def ReadsBack (v : Json) : Prop :=
  ∀ fuel rest, (v.write ++ rest).length < fuel → Ends rest →
    readValue fuel (v.write ++ rest) = some (v, rest)

theorem ends_writeItems (items : List Json) (rest : List Char) :
    Ends (writeItems items ++ rest) := by
  cases items with
  | nil => exact ends_cons (by decide) _
  | cons item items => exact ends_cons (by decide) _

theorem ends_writeMembers (members : List (Option String × Json)) (rest : List Char) :
    Ends (writeMembers members ++ rest) := by
  cases members with
  | nil => exact ends_cons (by decide) _
  | cons m members => exact ends_cons (by decide) _

theorem exists_succ_of_lt {n fuel : Nat} (h : n < fuel) : ∃ k, fuel = k + 1 :=
  ⟨fuel - 1, by omega⟩

theorem readItems_writeItems {items : List Json} (h : ∀ v ∈ items, v.ReadsBack) (fuel : Nat)
    (rest : List Char) (hfuel : (writeItems items ++ rest).length < fuel) :
    readItems fuel (writeItems items ++ rest) = some (items, rest) := by
  induction items generalizing fuel with
  | nil =>
    obtain ⟨fuel, rfl⟩ := exists_succ_of_lt hfuel
    exact readItems_close (skip_cons (by decide) rest) fuel
  | cons item items ih =>
    obtain ⟨fuel, rfl⟩ := exists_succ_of_lt hfuel
    have htext : writeItems (item :: items) ++ rest =
        ',' :: (item.write ++ (writeItems items ++ rest)) := by
      simp [writeItems]
    rw [htext] at hfuel ⊢
    simp only [List.length_cons, List.length_append] at hfuel
    rw [readItems_comma (skip_cons (by decide) _),
      h item List.mem_cons_self fuel _ (by simp only [List.length_append]; omega)
        (ends_writeItems items rest)]
    show (readItems fuel (writeItems items ++ rest)).map _ = _
    rw [ih (fun v hv => h v (List.mem_cons_of_mem _ hv)) fuel
      (by simp only [List.length_append]; omega)]
    rfl

/-- A record's members, as an object has them. -/
def keyed (members : List (String × Json)) : List (Option String × Json) :=
  members.map fun (key, value) => (some key, value)

theorem readMembers_writeMembers {members : List (String × Json)}
    (h : ∀ m ∈ members, m.2.ReadsBack) (fuel : Nat) (rest : List Char)
    (hfuel : (writeMembers (keyed members) ++ rest).length < fuel) :
    readMembers fuel (writeMembers (keyed members) ++ rest) = some (keyed members, rest) := by
  induction members generalizing fuel with
  | nil =>
    obtain ⟨fuel, rfl⟩ := exists_succ_of_lt hfuel
    exact readMembers_close (skip_cons (by decide) rest) fuel
  | cons m members ih =>
    obtain ⟨key, value⟩ := m
    obtain ⟨fuel, rfl⟩ := exists_succ_of_lt hfuel
    have htext : writeMembers (keyed ((key, value) :: members)) ++ rest =
        ',' :: (writeText (some key) ++
          ':' :: (value.write ++ (writeMembers (keyed members) ++ rest))) := by
      simp [keyed, writeMembers]
    rw [htext] at hfuel ⊢
    simp only [List.length_cons, List.length_append] at hfuel
    rw [readMembers_comma (skip_cons (by decide) _), readKey_writeText]
    show (readValue fuel (value.write ++ (writeMembers (keyed members) ++ rest))).bind _ = _
    rw [h (key, value) List.mem_cons_self fuel _ (by simp only [List.length_append]; omega)
        (ends_writeMembers _ rest)]
    show (readMembers fuel (writeMembers (keyed members) ++ rest)).map _ = _
    rw [ih (fun m hm => h m (List.mem_cons_of_mem _ hm)) fuel
      (by simp only [List.length_append]; omega)]
    rfl

theorem readsBack_null : ReadsBack null := by
  intro fuel rest hfuel _
  obtain ⟨fuel, rfl⟩ := exists_succ_of_lt hfuel
  show readValue (fuel + 1) ('n' :: 'u' :: 'l' :: 'l' :: rest) = _
  rw [readValue, skip_cons (by decide)]
  rfl

theorem readsBack_bool (b : Bool) : ReadsBack (bool b) := by
  intro fuel rest hfuel _
  obtain ⟨fuel, rfl⟩ := exists_succ_of_lt hfuel
  cases b with
  | false =>
    show readValue (fuel + 1) ('f' :: 'a' :: 'l' :: 's' :: 'e' :: rest) = _
    rw [readValue, skip_cons (by decide)]
    rfl
  | true =>
    show readValue (fuel + 1) ('t' :: 'r' :: 'u' :: 'e' :: rest) = _
    rw [readValue, skip_cons (by decide)]
    rfl

theorem readsBack_nat (n : Nat) : ReadsBack (nat n) := by
  intro fuel rest hfuel hrest
  obtain ⟨fuel, rfl⟩ := exists_succ_of_lt hfuel
  rw [write_nat]
  have hread := readNumber_toDigits n hrest
  cases hfirst : Nat.toDigits 10 n with
  | nil => exact absurd hfirst Nat.toDigits_ne_nil
  | cons c digits =>
    have hdigit : c.isDigit = true :=
      isDigit_of_mem_toDigits (by rw [hfirst]; exact List.mem_cons_self)
    rw [hfirst] at hread
    rw [List.cons_append, readValue_number (skip_cons (isSpace_of_isDigit hdigit) _)
      (Or.inr hdigit), ← List.cons_append, hread]
    rfl

theorem readsBack_str (s : String) : ReadsBack (str s) := by
  intro fuel rest hfuel _
  obtain ⟨fuel, rfl⟩ := exists_succ_of_lt hfuel
  rw [write_str, writeText_append, readValue_text (skip_cons (by decide) _), readText_escapeAll]
  rfl

theorem readsBack_array {items : List Json} (h : ∀ v ∈ items, v.Regular)
    (hitems : ∀ v ∈ items, v.ReadsBack) : ReadsBack (array items) := by
  intro fuel rest hfuel _
  obtain ⟨fuel, rfl⟩ := exists_succ_of_lt hfuel
  cases items with
  | nil =>
    exact readValue_array_nil (skip_cons (by decide) _) (skip_cons (by decide) rest) fuel
  | cons item items =>
    have htext : (Json.array (item :: items)).write ++ rest =
        '[' :: (item.write ++ (writeItems items ++ rest)) := by
      simp [write]
    -- the first element starts with no bracket, so it is not taken for the end
    obtain ⟨c, after, hfirst, hspace, hc⟩ := (h item List.mem_cons_self).write_cons
    have hskip : skip (item.write ++ (writeItems items ++ rest)) =
        c :: (after ++ (writeItems items ++ rest)) := by
      rw [hfirst]
      exact skip_cons hspace _
    rw [htext] at hfuel ⊢
    simp only [List.length_cons, List.length_append] at hfuel
    rw [readValue_array (skip_cons (by decide) _) hskip hc,
      hitems item List.mem_cons_self fuel _ (by simp only [List.length_append]; omega)
        (ends_writeItems items rest)]
    show (readItems fuel (writeItems items ++ rest)).map _ = _
    rw [readItems_writeItems (fun v hv => hitems v (List.mem_cons_of_mem _ hv)) fuel rest
      (by simp only [List.length_append]; omega)]
    rfl

theorem readsBack_record {members : List (String × Json)}
    (hmembers : ∀ m ∈ members, m.2.ReadsBack) : ReadsBack (record members) := by
  intro fuel rest hfuel _
  obtain ⟨fuel, rfl⟩ := exists_succ_of_lt hfuel
  cases members with
  | nil =>
    exact readValue_object_nil (skip_cons (by decide) _) (skip_cons (by decide) rest) fuel
  | cons m members =>
    obtain ⟨key, value⟩ := m
    have htext : (Json.record ((key, value) :: members)).write ++ rest = '\x7b' ::
        (writeText (some key) ++ ':' ::
          (value.write ++ (writeMembers (keyed members) ++ rest))) := by
      simp [Json.record, keyed, write]
    obtain ⟨after, hskip⟩ : ∃ after, skip (writeText (some key) ++ ':' ::
        (value.write ++ (writeMembers (keyed members) ++ rest))) = '"' :: after :=
      ⟨_, by rw [writeText_append]; exact skip_cons (by decide) _⟩
    rw [htext] at hfuel ⊢
    simp only [List.length_cons, List.length_append] at hfuel
    rw [readValue_object (skip_cons (by decide) _) hskip (by decide), readKey_writeText]
    show (readValue fuel (value.write ++ (writeMembers (keyed members) ++ rest))).bind _ = _
    rw [hmembers (key, value) List.mem_cons_self fuel _ (by simp only [List.length_append]; omega)
      (ends_writeMembers _ rest)]
    show (readMembers fuel (writeMembers (keyed members) ++ rest)).map _ = _
    rw [readMembers_writeMembers (fun m hm => hmembers m (List.mem_cons_of_mem _ hm)) fuel rest
      (by simp only [List.length_append]; omega)]
    rfl

/-- Every regular document reads back. -/
theorem Regular.readsBack {v : Json} (h : v.Regular) : v.ReadsBack := by
  induction h with
  | null => exact readsBack_null
  | bool b => exact readsBack_bool b
  | nat n => exact readsBack_nat n
  | str s => exact readsBack_str s
  | array h ih => exact readsBack_array h ih
  | record _ ih => exact readsBack_record ih

theorem Regular.read_write {v : Json} (h : v.Regular) : read v.write = some v := by
  have hread := h.readsBack (v.write.length + 1) [] (by simp) ends_nil
  rw [List.append_nil] at hread
  rw [read, hread]
  rfl

theorem write_record_cons (members : List (String × Json)) :
    ∃ rest, (record members).write = '\x7b' :: rest := by
  cases members with
  | nil => exact ⟨_, rfl⟩
  | cons m members => exact ⟨_, rfl⟩

theorem writeMembers_concat (members : List (Option String × Json)) :
    ∃ start, writeMembers members = start ++ ['\x7d'] := by
  induction members with
  | nil => exact ⟨[], rfl⟩
  | cons m members ih =>
    obtain ⟨start, hstart⟩ := ih
    refine ⟨',' :: writeText m.1 ++ ':' :: m.2.write ++ start, ?_⟩
    simp [writeMembers, hstart]

/-- What a record is written as starts with a brace and ends with one. -/
theorem write_record_concat (members : List (String × Json)) :
    ∃ start, (record members).write = start ++ ['\x7d'] := by
  cases members with
  | nil => exact ⟨['\x7b'], rfl⟩
  | cons m members =>
    obtain ⟨start, hstart⟩ := writeMembers_concat (keyed members)
    refine ⟨'\x7b' :: writeText (some m.1) ++ ':' :: m.2.write ++ start, ?_⟩
    rw [List.append_assoc _ start, ← hstart]
    rfl

/-- A record that breaks off anywhere spells nothing. -/
theorem read_part {members : List (String × Json)} (h : (record members).Regular)
    {part rest : List Char} (hwrite : part ++ rest = (record members).write) (hrest : rest ≠ []) :
    read part = none := by
  cases part with
  | nil => rfl
  | cons c part =>
    obtain ⟨after, hbrace⟩ := write_record_cons members
    have hc : c = '\x7b' := by
      rw [hbrace] at hwrite
      exact (List.cons.inj hwrite).1
    subst hc
    have hread := h.readsBack ((record members).write.length + 1) [] (by simp) ends_nil
    rw [List.append_nil, ← hwrite] at hread
    refine read_torn (skip_cons (by decide) part) hrest ?_ hread
    rw [List.length_append]
    omega

/-! ## §4. One line -/

/-- Characters none of which is a control character. -/
def Visible (cs : List Char) : Prop := ∀ c ∈ cs, 0x20 ≤ c.toNat

theorem visible_nil : Visible [] := fun _ hc => nomatch hc

theorem visible_of_all {cs : List Char} (h : cs.all (fun c => decide (0x20 ≤ c.toNat)) = true) :
    Visible cs :=
  fun c hc => of_decide_eq_true (List.all_eq_true.1 h c hc)

theorem visible_append {before after : List Char} (h : Visible before) (h' : Visible after) :
    Visible (before ++ after) :=
  fun c hc => (List.mem_append.1 hc).elim (h c) (h' c)

theorem visible_cons {c : Char} {rest : List Char} (hc : 0x20 ≤ c.toNat) (h : Visible rest) :
    Visible (c :: rest) :=
  List.forall_mem_cons.2 ⟨hc, h⟩

theorem visible_fixed (width n : Nat) : Visible (Hex.fixed width n) := by
  have hdigit : ∀ k < 16, 0x20 ≤ (Hex.digit k).toNat := by decide
  induction width generalizing n with
  | zero => exact visible_nil
  | succ width ih =>
    exact visible_append (ih _)
      (visible_cons (hdigit _ (Nat.mod_lt n (by decide))) visible_nil)

theorem visible_escapeAll (cs : List Char) : Visible (escapeAll cs) := by
  induction cs with
  | nil => exact visible_nil
  | cons c cs ih =>
    refine visible_append ?_ ih
    obtain ⟨d, hescape, -, hd, -⟩ | ⟨-, hescape⟩ | ⟨-, -, hcontrol, hescape⟩ := escape_cases c
    · rw [hescape]
      exact visible_cons (by decide) (visible_cons hd visible_nil)
    · rw [hescape]
      exact visible_cons (by decide) (visible_cons (by decide) (visible_fixed 4 _))
    · rw [hescape]
      exact visible_cons (Nat.not_lt.1 hcontrol) visible_nil

theorem visible_writeText (t : Option String) : Visible (writeText t) :=
  visible_append (visible_cons (by decide) (visible_escapeAll _))
    (visible_cons (by decide) visible_nil)

theorem visible_writeItems {items : List Json} (h : ∀ v ∈ items, Visible v.write) :
    Visible (writeItems items) := by
  induction items with
  | nil => exact visible_cons (by decide) visible_nil
  | cons item items ih =>
    exact visible_append (visible_cons (by decide) (h item List.mem_cons_self))
      (ih fun v hv => h v (List.mem_cons_of_mem _ hv))

theorem visible_writeMembers {members : List (String × Json)}
    (h : ∀ m ∈ members, Visible m.2.write) : Visible (writeMembers (keyed members)) := by
  induction members with
  | nil => exact visible_cons (by decide) visible_nil
  | cons m members ih =>
    exact visible_append (visible_append (visible_cons (by decide) (visible_writeText _))
      (visible_cons (by decide) (h m List.mem_cons_self)))
      (ih fun m hm => h m (List.mem_cons_of_mem _ hm))

theorem visible_of_isDigit {c : Char} (h : c.isDigit = true) : 0x20 ≤ c.toNat := by
  simp only [Char.isDigit, ge_iff_le, Bool.and_eq_true, decide_eq_true_eq] at h
  exact Nat.le_trans (by decide) (UInt32.le_iff_toNat_le.1 h.1)

theorem Regular.visible_write {v : Json} (h : v.Regular) : Visible v.write := by
  induction h with
  | null => exact visible_of_all (by decide)
  | bool b => cases b <;> exact visible_of_all (by decide)
  | nat n =>
    intro c hc
    rw [write_nat] at hc
    exact visible_of_isDigit (isDigit_of_mem_toDigits hc)
  | str s =>
    rw [write_str]
    exact visible_writeText _
  | @array items h ih =>
    cases items with
    | nil => exact visible_of_all (by decide)
    | cons item items =>
      exact visible_append (visible_cons (by decide) (ih item List.mem_cons_self))
        (visible_writeItems fun v hv => ih v (List.mem_cons_of_mem _ hv))
  | @record members h ih =>
    cases members with
    | nil => exact visible_of_all (by decide)
    | cons m members =>
      exact visible_append (visible_append (visible_cons (by decide) (visible_writeText _))
        (visible_cons (by decide) (ih m List.mem_cons_self)))
        (visible_writeMembers fun m hm => ih m (List.mem_cons_of_mem _ hm))

/-- A document is on one line. -/
theorem Regular.newline_not_mem_write {v : Json} (h : v.Regular) : '\n' ∉ v.write :=
  fun hmem => absurd (h.visible_write _ hmem) (by decide)

end Json

end BrokerTopology
