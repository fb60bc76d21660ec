/-
  BrokerTopology.Proofs.JsonReading — the reader of documents reads no
  further than it must.

  A value ends with its closing quote, bracket or brace, and what stands
  after that makes no difference to what is read.  Only a number has no
  end of its own: at the end of the text it might go on.

  So a text that spells an object spells nothing if it breaks off
  anywhere, since what was read of the part would have been read of the
  whole, with something left over.

  Main statements:
    * `valueRead`, `itemsRead`, `membersRead` — what may be read, by what
      the text starts with.
    * `read_append` — what follows a value makes no difference to it.
    * `read_torn` — of an object no part short of the whole can be read.
-/
import BrokerTopology.Json.Reader

namespace BrokerTopology

namespace Json

/-! ## §1. One character after the other -/

theorem skip_cons {c : Char} (h : isSpace c = false) (rest : List Char) :
    skip (c :: rest) = c :: rest := by
  rw [skip, h]
  rfl

theorem skip_append {s t q : List Char} {c : Char} (h : skip s = c :: t) :
    skip (s ++ q) = c :: (t ++ q) := by
  induction s with
  | nil => cases h
  | cons d s ih =>
    rw [List.cons_append]
    unfold skip at h ⊢
    split at h
    next hd =>
      rw [if_pos hd]
      exact ih h
    next hd =>
      rw [if_neg hd]
      injection h with hc ht
      rw [hc, ht]

/-- A text with one more code unit in front. -/
def withUnit (unit : Nat) : List Nat × List Char → List Nat × List Char :=
  fun (units, after) => (unit :: units, after)

theorem readUnits_quote (rest : List Char) : readUnits ('"' :: rest) = some ([], rest) := by
  simp [readUnits]

theorem readUnits_unicode (a b c d : Char) (rest : List Char) :
    readUnits ('\\' :: 'u' :: a :: b :: c :: d :: rest) =
      (unit? a b c d).bind fun unit => (readUnits rest).map (withUnit unit) := by
  rw [readUnits]
  cases unit? a b c d with
  | none => rfl
  | some unit => rfl

theorem readUnits_short {c : Char} (hc : c ≠ 'u') (rest : List Char) :
    readUnits ('\\' :: c :: rest) =
      (shortEscape? c).bind fun e => (readUnits rest).map (withUnit e.toNat) := by
  rw [readUnits]
  · cases shortEscape? c with
    | none => rfl
    | some e => rfl
  · intro _ _ _ _ _ h
    exact absurd h hc

theorem readUnits_plain {c : Char} (hquote : c ≠ '"') (hescape : c ≠ '\\')
    (hcontrol : ¬ c.toNat < 0x20) (rest : List Char) :
    readUnits (c :: rest) = (readUnits rest).map (withUnit c.toNat) := by
  rw [readUnits]
  · rw [if_neg hcontrol]
    rfl
  · exact hquote
  · intro _ _ _ _ _ h
    exact absurd h hescape
  · intro _ _ h
    exact absurd h hescape

/-- What follows the closing quote makes no difference. -/
theorem readUnits_append {s t q : List Char} {units : List Nat}
    (h : readUnits s = some (units, t)) : readUnits (s ++ q) = some (units, t ++ q) := by
  fun_induction readUnits s generalizing units with
  | case1 rest =>
    injection h with h
    injection h with hunits ht
    rw [List.cons_append, readUnits_quote, hunits, ht]
  | case2 => cases h
  | case3 a b c d rest unit hunit ih =>
    obtain ⟨⟨units, t⟩, hrest, rfl, rfl⟩ := Option.map_eq_some_iff.1 h
    simp only [List.cons_append]
    rw [readUnits_unicode, hunit, ih hrest]
    rfl
  | case4 => cases h
  | case5 c rest hc e he ih =>
    have hne : c ≠ 'u' := by
      rintro rfl
      cases he
    obtain ⟨⟨units, t⟩, hrest, rfl, rfl⟩ := Option.map_eq_some_iff.1 h
    simp only [List.cons_append]
    rw [readUnits_short hne, he, ih hrest]
    rfl
  | case6 => cases h
  | case7 c rest hquote hunicode hshort hcontrol ih =>
    obtain ⟨⟨units, t⟩, hrest, rfl, rfl⟩ := Option.map_eq_some_iff.1 h
    -- a backslash at the very end escapes nothing, and nothing is read after it
    have hescape : c ≠ '\\' := by
      rintro rfl
      cases rest with
      | nil => cases hrest
      | cons d rest => exact hshort d rest rfl rfl
    rw [List.cons_append, readUnits_plain hquote hescape hcontrol, ih hrest]
    rfl
  | case8 => cases h

theorem readText_append {s t q : List Char} {text : Option String}
    (h : readText s = some (text, t)) : readText (s ++ q) = some (text, t ++ q) := by
  obtain ⟨⟨units, t⟩, hunits, rfl, rfl⟩ := Option.map_eq_some_iff.1 h
  rw [readText, readUnits_append hunits]
  rfl

theorem readKey_append {s t q : List Char} {key : Option String} (h : readKey s = some (key, t)) :
    readKey (s ++ q) = some (key, t ++ q) := by
  unfold readKey at h
  split at h
  next rest hquote =>
    split at h
    next => cases h
    next key' rest' htext =>
      split at h
      next rest'' hcolon =>
        injection h with h
        injection h with hkey ht
        unfold readKey
        rw [skip_append hquote]
        simp only
        rw [readText_append htext]
        simp only [skip_append hcolon, hkey, ht]
      next => cases h
  next => cases h

/-! ## §2. Numbers -/

/-- Digits that something follows already are all of them. -/
theorem spanDigits_append {s digits t q : List Char} (h : spanDigits s = (digits, t))
    (ht : t ≠ []) : spanDigits (s ++ q) = (digits, t ++ q) := by
  induction s generalizing digits with
  | nil =>
    injection h with _ h
    exact absurd h.symm ht
  | cons c s ih =>
    rw [List.cons_append]
    unfold spanDigits at h ⊢
    split at h
    next hc =>
      rw [if_pos hc]
      injection h with hdigits hrest
      rw [ih (Prod.ext rfl hrest), ← hdigits]
    next hc =>
      rw [if_neg hc]
      injection h with hdigits hrest
      rw [← hdigits, ← hrest]
      rfl

/-- The number that digits write, if they may stand before the point. -/
def whole? : List Char → Option Nat
  | [] => none
  | '0' :: _ :: _ => none
  | digits => some (Nat.ofDigitChars 10 digits 0)

theorem readWhole_eq (s : List Char) :
    readWhole s = (whole? (spanDigits s).1).map fun n => (n, (spanDigits s).2) := by
  unfold readWhole whole?
  split <;> simp_all

theorem readWhole_append {s t q : List Char} {n : Nat} (h : readWhole s = some (n, t))
    (ht : t ≠ []) : readWhole (s ++ q) = some (n, t ++ q) := by
  rw [readWhole_eq] at h ⊢
  obtain ⟨n, hn, rfl, rfl⟩ := Option.map_eq_some_iff.1 h
  rw [spanDigits_append rfl ht, hn]
  rfl

theorem readFraction_point (rest : List Char) :
    readFraction ('.' :: rest) = if (spanDigits rest).1 = [] then none
      else some (some (spanDigits rest).1, (spanDigits rest).2) := by
  rw [readFraction]
  split <;> simp_all

theorem readFraction_other {s : List Char} (hs : s.head? ≠ some '.') :
    readFraction s = some (none, s) := by
  cases s with
  | nil => rfl
  | cons c rest =>
    rw [readFraction]
    intro rest' heq
    injection heq with hc
    exact hs (by rw [hc]; rfl)

theorem readFraction_append {s t q : List Char} {fraction : Option (List Char)}
    (h : readFraction s = some (fraction, t)) (ht : t ≠ []) :
    readFraction (s ++ q) = some (fraction, t ++ q) := by
  by_cases hs : s.head? = some '.'
  · obtain ⟨rest, rfl⟩ := List.head?_eq_some_iff.1 hs
    rw [List.cons_append]
    rw [readFraction_point] at h ⊢
    split at h
    next => cases h
    next hdigits =>
      injection h with h
      injection h with hfraction hafter
      rw [spanDigits_append rfl (hafter ▸ ht), if_neg hdigits, hfraction, hafter]
  · rw [readFraction_other hs] at h
    injection h with h
    injection h with hfraction hafter
    subst hfraction hafter
    rw [readFraction_other]
    rwa [List.head?_append, List.head?_eq_some_head ht, Option.some_or,
      ← List.head?_eq_some_head ht]

theorem readPower_eq (negative : Bool) (s : List Char) :
    readPower negative s = if (spanDigits s).1 = [] then none
      else some (some (negative, Nat.ofDigitChars 10 (spanDigits s).1 0), (spanDigits s).2) := by
  unfold readPower
  split <;> simp_all

theorem readPower_append {negative : Bool} {s t q : List Char} {power : Option (Bool × Nat)}
    (h : readPower negative s = some (power, t)) (ht : t ≠ []) :
    readPower negative (s ++ q) = some (power, t ++ q) := by
  rw [readPower_eq] at h ⊢
  split at h
  next => cases h
  next hdigits =>
    injection h with h
    injection h with hpower hafter
    rw [spanDigits_append rfl (hafter ▸ ht), if_neg hdigits, hpower, hafter]

theorem readExponent_other {c : Char} (hc : ¬(c = 'e' ∨ c = 'E')) (rest : List Char) :
    readExponent (c :: rest) = some (none, c :: rest) := by
  rw [readExponent.eq_def]
  simp only [if_neg hc]

/-- The exponent after its letter. -/
def readSigned : List Char → Option (Option (Bool × Nat) × List Char)
  | '+' :: after => readPower false after
  | '-' :: after => readPower true after
  | s => readPower false s

theorem readExponent_letter {c : Char} (hc : c = 'e' ∨ c = 'E') (rest : List Char) :
    readExponent (c :: rest) = readSigned rest := by
  rw [readExponent.eq_def]
  simp only [if_pos hc]
  unfold readSigned
  split <;> simp_all

theorem readSigned_unsigned {c : Char} (hplus : c ≠ '+') (hminus : c ≠ '-') (rest : List Char) :
    readSigned (c :: rest) = readPower false (c :: rest) := by
  rw [readSigned]
  · intro after heq
    injection heq with hc
    exact hplus hc
  · intro after heq
    injection heq with hc
    exact hminus hc

theorem readSigned_append {s t q : List Char} {power : Option (Bool × Nat)}
    (h : readSigned s = some (power, t)) (ht : t ≠ []) :
    readSigned (s ++ q) = some (power, t ++ q) := by
  unfold readSigned at h
  split at h
  next => exact readPower_append h ht
  next => exact readPower_append h ht
  next hplus hminus =>
    cases s with
    | nil => cases h
    | cons c rest =>
      have hc : c ≠ '+' := fun hc => hplus rest (by rw [hc])
      have hc' : c ≠ '-' := fun hc => hminus rest (by rw [hc])
      rw [List.cons_append, readSigned_unsigned hc hc', ← List.cons_append]
      exact readPower_append h ht

theorem readExponent_append {s t q : List Char} {exponent : Option (Bool × Nat)}
    (h : readExponent s = some (exponent, t)) (ht : t ≠ []) :
    readExponent (s ++ q) = some (exponent, t ++ q) := by
  cases s with
  | nil =>
    injection h with h
    injection h with _ hafter
    exact absurd hafter.symm ht
  | cons c rest =>
    rw [List.cons_append]
    by_cases hc : c = 'e' ∨ c = 'E'
    · rw [readExponent_letter hc] at h ⊢
      exact readSigned_append h ht
    · rw [readExponent_other hc] at h ⊢
      injection h with h
      injection h with hexponent hafter
      subst hexponent hafter
      rfl

/-- A part of a number that something follows is not at the end of the text. -/
theorem ne_nil_of_readExponent {s t : List Char} {exponent : Option (Bool × Nat)}
    (h : readExponent s = some (exponent, t)) (ht : t ≠ []) : s ≠ [] := by
  rintro rfl
  injection h with h
  injection h with _ h
  exact ht h.symm

theorem ne_nil_of_readFraction {s t : List Char} {fraction : Option (List Char)}
    (h : readFraction s = some (fraction, t)) (ht : t ≠ []) : s ≠ [] := by
  rintro rfl
  injection h with h
  injection h with _ h
  exact ht h.symm

theorem readUnsigned_append {negative : Bool} {s t q : List Char} {n : Number}
    (h : readUnsigned negative s = some (n, t)) (ht : t ≠ []) :
    readUnsigned negative (s ++ q) = some (n, t ++ q) := by
  unfold readUnsigned at h
  obtain ⟨⟨whole, s₁⟩, hwhole, h⟩ := Option.bind_eq_some_iff.1 h
  obtain ⟨⟨fraction, s₂⟩, hfraction, h⟩ := Option.bind_eq_some_iff.1 h
  obtain ⟨⟨exponent, s₃⟩, hexponent, h⟩ := Option.bind_eq_some_iff.1 h
  injection h with h
  injection h with hn hs
  subst hn hs
  -- something follows the number, so something follows each of its parts
  have hs₂ := ne_nil_of_readExponent hexponent ht
  have hs₁ := ne_nil_of_readFraction hfraction hs₂
  unfold readUnsigned
  rw [readWhole_append hwhole hs₁]
  show (readFraction (s₁ ++ q)).bind _ = _
  rw [readFraction_append hfraction hs₂]
  show (readExponent (s₂ ++ q)).bind _ = _
  rw [readExponent_append hexponent ht]
  rfl

theorem readNumber_unsigned {c : Char} (hc : c ≠ '-') (rest : List Char) :
    readNumber (c :: rest) = readUnsigned false (c :: rest) := by
  rw [readNumber]
  intro after heq
  injection heq with heq
  exact hc heq

/-- What follows a number makes no difference if something follows it already. -/
theorem readNumber_append {s t q : List Char} {n : Number} (h : readNumber s = some (n, t))
    (ht : t ≠ []) : readNumber (s ++ q) = some (n, t ++ q) := by
  unfold readNumber at h
  split at h
  next => exact readUnsigned_append h ht
  next hsign =>
    cases s with
    | nil => cases h
    | cons c rest =>
      have hc : c ≠ '-' := fun hc => hsign rest (by rw [hc])
      rw [List.cons_append, readNumber_unsigned hc, ← List.cons_append]
      exact readUnsigned_append h ht

/-- A number starts with its sign or with a digit. -/
theorem head_of_readNumber {c : Char} {s t : List Char} {n : Number}
    (h : readNumber (c :: s) = some (n, t)) : c = '-' ∨ c.isDigit = true := by
  by_cases hc : c = '-'
  · exact Or.inl hc
  · rw [readNumber_unsigned hc] at h
    obtain ⟨⟨whole, s₁⟩, hwhole, -⟩ := Option.bind_eq_some_iff.1 h
    rw [readWhole_eq, spanDigits] at hwhole
    split at hwhole
    next hdigit => exact Or.inr hdigit
    next => cases hwhole

/-! ## §3. Documents -/

/-- Whether a document is a number. -/
def isNumber : Json → Bool
  | .number _ => true
  | _ => false

/-- What starts none of the other values is read as a number. -/
theorem readValue_number {c : Char} {s rest : List Char} (hs : skip s = c :: rest)
    (hc : c = '-' ∨ c.isDigit = true) (fuel : Nat) :
    readValue (fuel + 1) s = (readNumber (c :: rest)).map fun (n, rest) => (.number n, rest) := by
  have hne : ∀ d : Char, d ≠ '-' → d.isDigit = false → c ≠ d := by
    rintro d hminus hdigit rfl
    rcases hc with hc | hc
    · exact hminus hc
    · rw [hdigit] at hc
      cases hc
  rw [readValue, hs]
  split
  next heq => exact absurd (List.cons.inj heq).1 (hne 'n' (by decide) (by decide))
  next heq => exact absurd (List.cons.inj heq).1 (hne 't' (by decide) (by decide))
  next heq => exact absurd (List.cons.inj heq).1 (hne 'f' (by decide) (by decide))
  next heq => exact absurd (List.cons.inj heq).1 (hne '"' (by decide) (by decide))
  next heq => exact absurd (List.cons.inj heq).1 (hne '[' (by decide) (by decide))
  next heq => exact absurd (List.cons.inj heq).1 (hne '{' (by decide) (by decide))
  next => rfl

theorem readValue_text {s rest : List Char} (hs : skip s = '"' :: rest) (fuel : Nat) :
    readValue (fuel + 1) s = (readText rest).map fun (t, rest) => (.text t, rest) := by
  rw [readValue, hs]
  rfl

theorem readValue_array_nil {s rest after : List Char} (hs : skip s = '[' :: rest)
    (hrest : skip rest = ']' :: after) (fuel : Nat) :
    readValue (fuel + 1) s = some (.array [], after) := by
  rw [readValue, hs]
  simp only [hrest]

theorem readValue_array {s rest after : List Char} {c : Char} (hs : skip s = '[' :: rest)
    (hrest : skip rest = c :: after) (hc : c ≠ ']') (fuel : Nat) :
    readValue (fuel + 1) s = (readValue fuel rest).bind fun (item, rest) =>
      (readItems fuel rest).map fun (items, rest) => (.array (item :: items), rest) := by
  rw [readValue, hs]
  simp only [hrest]
  split
  next heq => exact absurd (List.cons.inj heq).1 hc
  next =>
    cases readValue fuel rest with
    | none => rfl
    | some r => rfl

theorem readValue_object_nil {s rest after : List Char} (hs : skip s = '\x7b' :: rest)
    (hrest : skip rest = '\x7d' :: after) (fuel : Nat) :
    readValue (fuel + 1) s = some (.object [], after) := by
  rw [readValue, hs]
  simp only [hrest]

theorem readValue_object {s rest after : List Char} {c : Char} (hs : skip s = '\x7b' :: rest)
    (hrest : skip rest = c :: after) (hc : c ≠ '\x7d') (fuel : Nat) :
    readValue (fuel + 1) s = (readKey rest).bind fun (key, rest) =>
      (readValue fuel rest).bind fun (value, rest) =>
        (readMembers fuel rest).map fun (members, rest) =>
          (.object ((key, value) :: members), rest) := by
  rw [readValue, hs]
  simp only [hrest]
  split
  next heq => exact absurd (List.cons.inj heq).1 hc
  next =>
    cases readKey rest with
    | none => rfl
    | some r =>
      obtain ⟨key, rest⟩ := r
      simp only [Option.bind_some]
      cases readValue fuel rest with
      | none => rfl
      | some r => rfl

theorem readItems_close {s rest : List Char} (hs : skip s = ']' :: rest) (fuel : Nat) :
    readItems (fuel + 1) s = some ([], rest) := by
  rw [readItems, hs]
  rfl

theorem readMembers_close {s rest : List Char} (hs : skip s = '\x7d' :: rest) (fuel : Nat) :
    readMembers (fuel + 1) s = some ([], rest) := by
  rw [readMembers, hs]
  rfl

theorem readItems_comma {s rest : List Char} (hs : skip s = ',' :: rest) (fuel : Nat) :
    readItems (fuel + 1) s = (readValue fuel rest).bind fun (item, rest) =>
      (readItems fuel rest).map fun (items, rest) => (item :: items, rest) := by
  rw [readItems, hs]
  simp only
  cases readValue fuel rest with
  | none => rfl
  | some r => rfl

theorem readMembers_comma {s rest : List Char} (hs : skip s = ',' :: rest) (fuel : Nat) :
    readMembers (fuel + 1) s = (readKey rest).bind fun (key, rest) =>
      (readValue fuel rest).bind fun (value, rest) =>
        (readMembers fuel rest).map fun (members, rest) => ((key, value) :: members, rest) := by
  rw [readMembers, hs]
  simp only
  cases readKey rest with
  | none => rfl
  | some r =>
    obtain ⟨key, rest⟩ := r
    simp only [Option.bind_some]
    cases readValue fuel rest with
    | none => rfl
    | some r => rfl

theorem exists_skip_of_readKey {s t : List Char} {key : Option String}
    (h : readKey s = some (key, t)) : ∃ after, skip s = '"' :: after := by
  unfold readKey at h
  split at h
  next rest hquote => exact ⟨rest, hquote⟩
  next => cases h

/-- There is nothing to read where only blanks are. -/
theorem exists_skip_of_readValue {fuel : Nat} {s : List Char} {r : Json × List Char}
    (h : readValue fuel s = some r) : ∃ c after, skip s = c :: after := by
  cases hs : skip s with
  | nil =>
    cases fuel with
    | zero => cases h
    | succ fuel =>
      rw [readValue, hs] at h
      cases h
  | cons c after => exact ⟨c, after, rfl⟩

/-- What may be read as a value, by what it starts with. -/
inductive ValueRead (fuel : Nat) (s : List Char) : Json × List Char → Prop
  | null {rest : List Char} (hs : skip s = 'n' :: 'u' :: 'l' :: 'l' :: rest) :
      ValueRead fuel s (.null, rest)
  | true {rest : List Char} (hs : skip s = 't' :: 'r' :: 'u' :: 'e' :: rest) :
      ValueRead fuel s (.bool true, rest)
  | false {rest : List Char} (hs : skip s = 'f' :: 'a' :: 'l' :: 's' :: 'e' :: rest) :
      ValueRead fuel s (.bool false, rest)
  | text {rest after : List Char} {t : Option String} (hs : skip s = '"' :: rest)
      (htext : readText rest = some (t, after)) : ValueRead fuel s (.text t, after)
  | arrayNil {rest after : List Char} (hs : skip s = '[' :: rest)
      (hrest : skip rest = ']' :: after) : ValueRead fuel s (.array [], after)
  | array {rest after next last : List Char} {c : Char} {item : Json} {items : List Json}
      (hs : skip s = '[' :: rest) (hrest : skip rest = c :: after) (hc : c ≠ ']')
      (hitem : readValue fuel rest = some (item, next))
      (hitems : readItems fuel next = some (items, last)) :
      ValueRead fuel s (.array (item :: items), last)
  | objectNil {rest after : List Char} (hs : skip s = '\x7b' :: rest)
      (hrest : skip rest = '\x7d' :: after) : ValueRead fuel s (.object [], after)
  | object {rest after next next' last : List Char} {c : Char} {key : Option String}
      {value : Json} {members : List (Option String × Json)}
      (hs : skip s = '\x7b' :: rest) (hrest : skip rest = c :: after) (hc : c ≠ '\x7d')
      (hkey : readKey rest = some (key, next))
      (hvalue : readValue fuel next = some (value, next'))
      (hmembers : readMembers fuel next' = some (members, last)) :
      ValueRead fuel s (.object ((key, value) :: members), last)
  | number {rest after : List Char} {c : Char} {n : Number} (hs : skip s = c :: rest)
      (hnumber : readNumber (c :: rest) = some (n, after)) :
      ValueRead fuel s (.number n, after)

theorem valueRead {fuel : Nat} {s : List Char} {r : Json × List Char}
    (h : readValue (fuel + 1) s = some r) : ValueRead fuel s r := by
  unfold readValue at h
  split at h
  next rest hs =>
    injection h with h
    exact h ▸ .null hs
  next rest hs =>
    injection h with h
    exact h ▸ .true hs
  next rest hs =>
    injection h with h
    exact h ▸ .false hs
  next rest hs =>
    obtain ⟨⟨t, after⟩, htext, rfl⟩ := Option.map_eq_some_iff.1 h
    exact .text hs htext
  next rest hs =>
    split at h
    next after hrest =>
      injection h with h
      exact h ▸ .arrayNil hs hrest
    next hclose =>
      split at h
      next => cases h
      next item next hitem =>
        obtain ⟨⟨items, last⟩, hitems, rfl⟩ := Option.map_eq_some_iff.1 h
        obtain ⟨c, after, hrest⟩ := exists_skip_of_readValue hitem
        have hc : c ≠ ']' := fun hc => hclose after (by rw [hrest, hc])
        exact .array hs hrest hc hitem hitems
  next rest hs =>
    split at h
    next after hrest =>
      injection h with h
      exact h ▸ .objectNil hs hrest
    next hclose =>
      split at h
      next => cases h
      next key next hkey =>
        split at h
        next => cases h
        next value next' hvalue =>
          obtain ⟨⟨members, last⟩, hmembers, rfl⟩ := Option.map_eq_some_iff.1 h
          obtain ⟨after, hrest⟩ := exists_skip_of_readKey hkey
          exact .object hs hrest (by decide) hkey hvalue hmembers
  next =>
    obtain ⟨⟨n, after⟩, hnumber, rfl⟩ := Option.map_eq_some_iff.1 h
    cases hs : skip s with
    | nil =>
      rw [hs] at hnumber
      cases hnumber
    | cons c rest =>
      rw [hs] at hnumber
      exact .number hs hnumber

/-- What may be read as the elements after the first. -/
inductive ItemsRead (fuel : Nat) (s : List Char) : List Json × List Char → Prop
  | close {rest : List Char} (hs : skip s = ']' :: rest) : ItemsRead fuel s ([], rest)
  | comma {rest next last : List Char} {item : Json} {items : List Json}
      (hs : skip s = ',' :: rest) (hitem : readValue fuel rest = some (item, next))
      (hitems : readItems fuel next = some (items, last)) :
      ItemsRead fuel s (item :: items, last)

theorem itemsRead {fuel : Nat} {s : List Char} {r : List Json × List Char}
    (h : readItems (fuel + 1) s = some r) : ItemsRead fuel s r := by
  unfold readItems at h
  split at h
  next rest hs =>
    injection h with h
    exact h ▸ .close hs
  next rest hs =>
    split at h
    next => cases h
    next item next hitem =>
      obtain ⟨⟨items, last⟩, hitems, rfl⟩ := Option.map_eq_some_iff.1 h
      exact .comma hs hitem hitems
  next => cases h

/-- What may be read as the members after the first. -/
inductive MembersRead (fuel : Nat) (s : List Char) :
    List (Option String × Json) × List Char → Prop
  | close {rest : List Char} (hs : skip s = '\x7d' :: rest) : MembersRead fuel s ([], rest)
  | comma {rest next next' last : List Char} {key : Option String} {value : Json}
      {members : List (Option String × Json)} (hs : skip s = ',' :: rest)
      (hkey : readKey rest = some (key, next))
      (hvalue : readValue fuel next = some (value, next'))
      (hmembers : readMembers fuel next' = some (members, last)) :
      MembersRead fuel s ((key, value) :: members, last)

theorem membersRead {fuel : Nat} {s : List Char} {r : List (Option String × Json) × List Char}
    (h : readMembers (fuel + 1) s = some r) : MembersRead fuel s r := by
  unfold readMembers at h
  split at h
  next rest hs =>
    injection h with h
    exact h ▸ .close hs
  next rest hs =>
    split at h
    next => cases h
    next key next hkey =>
      split at h
      next => cases h
      next value next' hvalue =>
        obtain ⟨⟨members, last⟩, hmembers, rfl⟩ := Option.map_eq_some_iff.1 h
        exact .comma hs hkey hvalue hmembers
  next => cases h

theorem ne_nil_of_readItems {fuel : Nat} {s : List Char} {r : List Json × List Char}
    (h : readItems fuel s = some r) : s ≠ [] := by
  rintro rfl
  cases fuel with
  | zero => cases h
  | succ fuel =>
    cases itemsRead h with
    | close hs => cases hs
    | comma hs => cases hs

theorem ne_nil_of_readMembers {fuel : Nat} {s : List Char}
    {r : List (Option String × Json) × List Char} (h : readMembers fuel s = some r) :
    s ≠ [] := by
  rintro rfl
  cases fuel with
  | zero => cases h
  | succ fuel =>
    cases membersRead h with
    | close hs => cases hs
    | comma hs => cases hs

/-! ## §4. What follows a document -/

/-- With this fuel or more, what follows a value makes no difference to it, unless it is a number at
the very end. -/
def ValuesStay (fuel : Nat) : Prop :=
  ∀ s v t, readValue fuel s = some (v, t) → ∀ fuel' q, fuel ≤ fuel' →
    (v.isNumber = true → t = [] → q = []) → readValue fuel' (s ++ q) = some (v, t ++ q)

/-- Nor to elements. -/
def ItemsStay (fuel : Nat) : Prop :=
  ∀ s items t, readItems fuel s = some (items, t) → ∀ fuel' q, fuel ≤ fuel' →
    readItems fuel' (s ++ q) = some (items, t ++ q)

/-- Nor to members. -/
def MembersStay (fuel : Nat) : Prop :=
  ∀ s members t, readMembers fuel s = some (members, t) → ∀ fuel' q, fuel ≤ fuel' →
    readMembers fuel' (s ++ q) = some (members, t ++ q)

theorem exists_succ_of_succ_le {fuel fuel' : Nat} (h : fuel + 1 ≤ fuel') :
    ∃ k, fuel' = k + 1 ∧ fuel ≤ k :=
  ⟨fuel' - 1, by omega, by omega⟩

section

variable {fuel : Nat} (hvalues : ValuesStay fuel) (hitemsStay : ItemsStay fuel)
  (hmembersStay : MembersStay fuel)

include hvalues

/-- A value that is not the last thing read stays what it is, also if it is a number. -/
theorem ValuesStay.before {s t : List Char} {v : Json} (h : readValue fuel s = some (v, t))
    (ht : t ≠ []) {fuel' : Nat} (hfuel : fuel ≤ fuel') (q : List Char) :
    readValue fuel' (s ++ q) = some (v, t ++ q) :=
  hvalues s v t h fuel' q hfuel fun _ hnil => absurd hnil ht

include hitemsStay in
theorem ItemsStay.succ : ItemsStay (fuel + 1) := by
  intro s items t h fuel' q hfuel
  obtain ⟨fuel', rfl, hle⟩ := exists_succ_of_succ_le hfuel
  cases itemsRead h with
  | close hs => exact readItems_close (skip_append hs) fuel'
  | comma hs hitem hitems =>
    rw [readItems_comma (skip_append hs),
      hvalues.before hitem (ne_nil_of_readItems hitems) hle q]
    show ((readItems fuel' (_ ++ q)).map _) = _
    rw [hitemsStay _ _ _ hitems fuel' q hle]
    rfl

include hmembersStay in
theorem MembersStay.succ : MembersStay (fuel + 1) := by
  intro s members t h fuel' q hfuel
  obtain ⟨fuel', rfl, hle⟩ := exists_succ_of_succ_le hfuel
  cases membersRead h with
  | close hs => exact readMembers_close (skip_append hs) fuel'
  | comma hs hkey hvalue hmembers =>
    rw [readMembers_comma (skip_append hs), readKey_append hkey]
    show ((readValue fuel' (_ ++ q)).bind _) = _
    rw [hvalues.before hvalue (ne_nil_of_readMembers hmembers) hle q]
    show ((readMembers fuel' (_ ++ q)).map _) = _
    rw [hmembersStay _ _ _ hmembers fuel' q hle]
    rfl

include hitemsStay hmembersStay in
theorem ValuesStay.succ : ValuesStay (fuel + 1) := by
  intro s v t h fuel' q hfuel hend
  obtain ⟨fuel', rfl, hle⟩ := exists_succ_of_succ_le hfuel
  cases valueRead h with
  | null hs =>
    rw [readValue, skip_append hs]
    rfl
  | true hs =>
    rw [readValue, skip_append hs]
    rfl
  | false hs =>
    rw [readValue, skip_append hs]
    rfl
  | text hs htext =>
    rw [readValue_text (skip_append hs), readText_append htext]
    rfl
  | arrayNil hs hrest => exact readValue_array_nil (skip_append hs) (skip_append hrest) fuel'
  | array hs hrest hc hitem hitems =>
    rw [readValue_array (skip_append hs) (skip_append hrest) hc,
      hvalues.before hitem (ne_nil_of_readItems hitems) hle q]
    show ((readItems fuel' (_ ++ q)).map _) = _
    rw [hitemsStay _ _ _ hitems fuel' q hle]
    rfl
  | objectNil hs hrest =>
    exact readValue_object_nil (skip_append hs) (skip_append hrest) fuel'
  | object hs hrest hc hkey hvalue hmembers =>
    rw [readValue_object (skip_append hs) (skip_append hrest) hc, readKey_append hkey]
    show ((readValue fuel' (_ ++ q)).bind _) = _
    rw [hvalues.before hvalue (ne_nil_of_readMembers hmembers) hle q]
    show ((readMembers fuel' (_ ++ q)).map _) = _
    rw [hmembersStay _ _ _ hmembers fuel' q hle]
    rfl
  | @number rest after c n hs hnumber =>
    have hc := head_of_readNumber hnumber
    -- a number has no end of its own: it stays only if something followed it already
    by_cases ht : t = []
    · rw [hend rfl ht, List.append_nil, List.append_nil, readValue_number hs hc, hnumber]
      rfl
    · rw [readValue_number (skip_append hs) hc, ← List.cons_append,
        readNumber_append hnumber ht]
      rfl

end

/-- What follows makes no difference, given enough fuel.  The three readers call each other, so they
are taken together. -/
theorem read_append (fuel : Nat) : ValuesStay fuel ∧ ItemsStay fuel ∧ MembersStay fuel := by
  induction fuel with
  | zero =>
    refine ⟨?_, ?_, ?_⟩
    · intro _ _ _ h
      cases h
    · intro _ _ _ h
      cases h
    · intro _ _ _ h
      cases h
  | succ fuel ih =>
    obtain ⟨hvalues, hitems, hmembers⟩ := ih
    exact ⟨hvalues.succ hitems hmembers, hitems.succ hvalues, hmembers.succ hvalues⟩

/-- What is read from an opening brace on is no number. -/
theorem isNumber_of_brace {fuel : Nat} {s rest t : List Char} {v : Json}
    (hs : skip s = '\x7b' :: rest) (h : readValue fuel s = some (v, t)) : v.isNumber = false := by
  cases fuel with
  | zero => cases h
  | succ fuel =>
    cases valueRead h with
    | @number rest' after c n hs' hnumber =>
      rw [hs] at hs'
      injection hs' with hc
      rcases head_of_readNumber hnumber with hc' | hc'
      · rw [← hc] at hc'
        cases hc'
      · rw [← hc] at hc'
        cases hc'
    | null => rfl
    | true => rfl
    | false => rfl
    | text => rfl
    | arrayNil => rfl
    | array => rfl
    | objectNil => rfl
    | object => rfl

/-- Of a text that spells an object, no part short of the whole spells anything. -/
theorem read_torn {s q rest : List Char} {v : Json} (hs : skip s = '\x7b' :: rest) (hq : q ≠ [])
    {fuel : Nat} (hfuel : s.length < fuel) (hwhole : readValue fuel (s ++ q) = some (v, [])) :
    read s = none := by
  unfold read
  split
  next v' t hread =>
    -- what was read of the part is read of the whole, and leaves what was torn off
    have hsame := (read_append (s.length + 1)).1 s v' t hread fuel q hfuel
      fun hnumber => by rw [isNumber_of_brace hs hread] at hnumber; cases hnumber
    rw [hwhole] at hsame
    injection hsame with hsame
    injection hsame with _ hnil
    exact absurd (List.append_eq_nil_iff.1 hnil.symm).2 hq
  next => rfl

end Json
end BrokerTopology
