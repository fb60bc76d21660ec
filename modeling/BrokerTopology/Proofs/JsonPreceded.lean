/-
  BrokerTopology.Proofs.JsonPreceded — an object that something stands in
  front of cannot be read.

  A text that ends in an object, with more than blanks in front of it,
  spells nothing.  A value that starts in front of the object and goes on
  into it must be a text: it is closed by the first quote of the object,
  and the first letter of the object's first key is nothing that may
  follow.  Any other value ends in front of the object, or takes it for a
  part of its own; then the closing brace of the object is the last
  character, and the value is never closed.

  The readers are taken together here, as in `read_append`: they call each
  other.

  Main statements:
    * `suffix_of_number`, `suffix_of_readKey` — numbers and keys end in front
      of the object.
    * `read_before` — where values, elements and members end.
    * `read_preceded` — such a text spells nothing.
-/
import BrokerTopology.Proofs.JsonRoundTrip

namespace BrokerTopology

namespace Json

/-! ## §1. What takes no brace -/

/-- What is left of a text after a part of it without an opening brace. -/
def Braceless (s rest : List Char) : Prop := ∃ part, s = part ++ rest ∧ '\x7b' ∉ part

namespace Braceless

variable {s rest last : List Char}

theorem refl (s : List Char) : Braceless s s := ⟨[], rfl, List.not_mem_nil⟩

theorem trans (h : Braceless s rest) (h' : Braceless rest last) : Braceless s last := by
  obtain ⟨part, rfl, hpart⟩ := h
  obtain ⟨part', rfl, hpart'⟩ := h'
  exact ⟨part ++ part', by rw [List.append_assoc], by simp [hpart, hpart']⟩

theorem cons {c : Char} (hc : c ≠ '\x7b') (h : Braceless s rest) : Braceless (c :: s) rest := by
  obtain ⟨part, rfl, hpart⟩ := h
  exact ⟨c :: part, rfl, by simp [hpart, hc.symm]⟩

/-- The object at the end of the text is still there. -/
theorem suffix (h : Braceless s rest) {after : List Char} (hs : '\x7b' :: after <:+ s) :
    '\x7b' :: after <:+ rest := by
  obtain ⟨part, rfl, hpart⟩ := h
  induction part with
  | nil => exact hs
  | cons c part ih =>
    rw [List.mem_cons, not_or] at hpart
    rw [List.cons_append, List.suffix_cons_iff] at hs
    rcases hs with heq | hs
    · exact absurd (List.cons.inj heq).1 hpart.1
    · exact ih hpart.2 hs

end Braceless

theorem braceless_skip (s : List Char) : Braceless s (skip s) := by
  induction s with
  | nil => exact .refl []
  | cons c s ih =>
    unfold skip
    split
    next hspace =>
      have hc : c ≠ '\x7b' := by
        rintro rfl
        cases hspace
      exact ih.cons hc
    next => exact .refl _

theorem braceless_spanDigits (s : List Char) : Braceless s (spanDigits s).2 := by
  induction s with
  | nil => exact .refl []
  | cons c s ih =>
    unfold spanDigits
    split
    next hdigit =>
      have hc : c ≠ '\x7b' := by
        rintro rfl
        cases hdigit
      exact ih.cons hc
    next => exact .refl _

theorem braceless_of_readFraction {s t : List Char} {fraction : Option (List Char)}
    (h : readFraction s = some (fraction, t)) : Braceless s t := by
  by_cases hs : s.head? = some '.'
  · obtain ⟨rest, rfl⟩ := List.head?_eq_some_iff.1 hs
    rw [readFraction_point] at h
    split at h
    next => cases h
    next =>
      injection h with h
      injection h with _ h
      exact (h ▸ braceless_spanDigits rest).cons (by decide)
  · rw [readFraction_other hs] at h
    injection h with h
    injection h with _ h
    exact h ▸ .refl s

theorem braceless_of_readPower {negative : Bool} {s t : List Char} {power : Option (Bool × Nat)}
    (h : readPower negative s = some (power, t)) : Braceless s t := by
  rw [readPower_eq] at h
  split at h
  next => cases h
  next =>
    injection h with h
    injection h with _ h
    exact h ▸ braceless_spanDigits s

theorem braceless_of_readExponent {s t : List Char} {exponent : Option (Bool × Nat)}
    (h : readExponent s = some (exponent, t)) : Braceless s t := by
  cases s with
  | nil =>
    injection h with h
    injection h with _ h
    exact h ▸ .refl []
  | cons c s =>
    by_cases hc : c = 'e' ∨ c = 'E'
    · have hbrace : c ≠ '\x7b' := by
        rintro rfl
        rcases hc with hc | hc <;> cases hc
      rw [readExponent_letter hc] at h
      unfold readSigned at h
      split at h
      next => exact ((braceless_of_readPower h).cons (by decide)).cons hbrace
      next => exact ((braceless_of_readPower h).cons (by decide)).cons hbrace
      next => exact (braceless_of_readPower h).cons hbrace
    · rw [readExponent_other hc] at h
      injection h with h
      injection h with _ h
      exact h ▸ .refl _

theorem braceless_of_readUnsigned {negative : Bool} {s t : List Char} {n : Number}
    (h : readUnsigned negative s = some (n, t)) : Braceless s t := by
  unfold readUnsigned at h
  obtain ⟨⟨whole, s₁⟩, hwhole, h⟩ := Option.bind_eq_some_iff.1 h
  obtain ⟨⟨fraction, s₂⟩, hfraction, h⟩ := Option.bind_eq_some_iff.1 h
  obtain ⟨⟨exponent, s₃⟩, hexponent, h⟩ := Option.bind_eq_some_iff.1 h
  injection h with h
  injection h with _ h
  rw [readWhole_eq] at hwhole
  obtain ⟨_, -, heq⟩ := Option.map_eq_some_iff.1 hwhole
  injection heq with _ hs₁
  have hdigits : Braceless s s₁ := hs₁ ▸ braceless_spanDigits s
  exact h ▸ (hdigits.trans (braceless_of_readFraction hfraction)).trans
    (braceless_of_readExponent hexponent)

theorem braceless_of_readNumber {s t : List Char} {n : Number}
    (h : readNumber s = some (n, t)) : Braceless s t := by
  unfold readNumber at h
  split at h
  next => exact (braceless_of_readUnsigned h).cons (by decide)
  next => exact braceless_of_readUnsigned h

/-! ## §2. Texts in front of an object -/

section

variable {u rest : List Char} {c : Char} (hu : u = '\x7b' :: '"' :: c :: rest)

include hu

/-- What does not begin with a brace is not the object. -/
theorem suffix_tail {d : Char} (hd : d ≠ '\x7b') {s : List Char} (hs : u <:+ d :: s) :
    u <:+ s := by
  rcases List.suffix_cons_iff.1 hs with heq | hs
  · rw [hu] at heq
    exact absurd (List.cons.inj heq).1.symm hd
  · exact hs

theorem suffix_of_number {s t : List Char} {n : Number} (h : readNumber s = some (n, t))
    (hs : u <:+ s) : u <:+ t := by
  subst hu
  exact (braceless_of_readNumber h).suffix hs

theorem suffix_of_skip {s : List Char} (hs : u <:+ s) : u <:+ skip s := by
  subst hu
  exact (braceless_skip s).suffix hs

/-- A text that starts in front of the object ends there, or with the object's first quote. -/
theorem suffix_of_readUnits {s t : List Char} {units : List Nat}
    (h : readUnits s = some (units, t)) (hs : u <:+ s) : u <:+ t ∨ t = c :: rest := by
  fun_induction readUnits s generalizing units with
  | case1 s =>
    injection h with h
    injection h with _ h
    exact Or.inl (h ▸ suffix_tail hu (by decide) hs)
  | case2 => cases h
  | case3 a b c' d s unit hunit ih =>
    obtain ⟨⟨units, t⟩, hrest, -, rfl⟩ := Option.map_eq_some_iff.1 h
    -- a brace is no hexadecimal digit, so the object does not start at one
    have hdigits : a ≠ '\x7b' ∧ b ≠ '\x7b' ∧ c' ≠ '\x7b' ∧ d ≠ '\x7b' := by
      refine ⟨?_, ?_, ?_, ?_⟩
      all_goals
        rintro rfl
        simp [unit?, Hex.value?] at hunit
    have hs := suffix_tail hu (by decide) (suffix_tail hu (by decide) hs)
    have hs := suffix_tail hu hdigits.2.1 (suffix_tail hu hdigits.1 hs)
    exact ih hrest (suffix_tail hu hdigits.2.2.2 (suffix_tail hu hdigits.2.2.1 hs))
  | case4 => cases h
  | case5 d s hunicode e he ih =>
    obtain ⟨⟨units, t⟩, hrest, -, rfl⟩ := Option.map_eq_some_iff.1 h
    have hd : d ≠ '\x7b' := by
      rintro rfl
      cases he
    exact ih hrest (suffix_tail hu hd (suffix_tail hu (by decide) hs))
  | case6 => cases h
  | case7 d s hquote hunicode hshort hcontrol ih =>
    obtain ⟨⟨units, t⟩, hrest, -, rfl⟩ := Option.map_eq_some_iff.1 h
    rcases List.suffix_cons_iff.1 hs with heq | hs
    · rw [hu] at heq
      obtain ⟨-, rfl⟩ := List.cons.inj heq
      rw [readUnits_quote] at hrest
      injection hrest with hrest
      injection hrest with _ hrest
      exact Or.inr hrest.symm
    · exact ih hrest hs
  | case8 => cases h

theorem suffix_of_readText {s t : List Char} {text : Option String}
    (h : readText s = some (text, t)) (hs : u <:+ s) : u <:+ t ∨ t = c :: rest := by
  obtain ⟨⟨units, t⟩, hunits, -, rfl⟩ := Option.map_eq_some_iff.1 h
  exact suffix_of_readUnits hu hunits hs

variable (hc : c.isAlpha = true)

include hc

omit hu in
/-- The first letter of the object's first key is no mark between values. -/
theorem not_mark (rest : List Char) :
    skip (c :: rest) = c :: rest ∧ c ≠ ':' ∧ c ≠ ',' ∧ c ≠ ']' ∧ c ≠ '\x7d' := by
  have hspace : isSpace c = false := by
    rw [Bool.eq_false_iff]
    intro hspace
    simp only [isSpace, Bool.or_eq_true, beq_iff_eq] at hspace
    rcases hspace with ((rfl | rfl) | rfl) | rfl <;> cases hc
  refine ⟨skip_cons hspace rest, ?_, ?_, ?_, ?_⟩
  all_goals
    rintro rfl
    cases hc

theorem suffix_of_readKey {s t : List Char} {key : Option String}
    (h : readKey s = some (key, t)) (hs : u <:+ s) : u <:+ t := by
  have hmark := not_mark hc rest
  unfold readKey at h
  split at h
  next quoted hquote =>
    have hquoted := suffix_tail hu (by decide) (hquote ▸ suffix_of_skip hu hs)
    split at h
    next => cases h
    next text after htext =>
      split at h
      next last hcolon =>
        injection h with h
        injection h with _ h
        subst h
        rcases suffix_of_readText hu htext hquoted with hafter | rfl
        · exact suffix_tail hu (by decide) (hcolon ▸ suffix_of_skip hu hafter)
        · rw [hmark.1] at hcolon
          exact absurd (List.cons.inj hcolon).1 hmark.2.1
      next => cases h
  next => cases h

omit hu in
theorem readItems_letter (fuel : Nat) : readItems fuel (c :: rest) = none := by
  have hmark := not_mark hc rest
  cases hread : readItems fuel (c :: rest) with
  | none => rfl
  | some r =>
    cases fuel with
    | zero => cases hread
    | succ fuel =>
      cases itemsRead hread with
      | close hs =>
        rw [hmark.1] at hs
        exact absurd (List.cons.inj hs).1 hmark.2.2.2.1
      | comma hs =>
        rw [hmark.1] at hs
        exact absurd (List.cons.inj hs).1 hmark.2.2.1

omit hu in
theorem readMembers_letter (fuel : Nat) : readMembers fuel (c :: rest) = none := by
  have hmark := not_mark hc rest
  cases hread : readMembers fuel (c :: rest) with
  | none => rfl
  | some r =>
    cases fuel with
    | zero => cases hread
    | succ fuel =>
      cases membersRead hread with
      | close hs =>
        rw [hmark.1] at hs
        exact absurd (List.cons.inj hs).1 hmark.2.2.2.2
      | comma hs =>
        rw [hmark.1] at hs
        exact absurd (List.cons.inj hs).1 hmark.2.2.1

/-! ## §3. Values in front of an object -/

omit hu hc in
/-- With this fuel, a value that starts in front of the object ends there, or in the object's first
key. -/
def ValuesBefore (u letters : List Char) (fuel : Nat) : Prop :=
  ∀ s v t, readValue fuel s = some (v, t) → u <:+ s → skip s ≠ u → u <:+ t ∨ t = letters

omit hu hc in
/-- Elements end there. -/
def ItemsBefore (u : List Char) (fuel : Nat) : Prop :=
  ∀ s items t, readItems fuel s = some (items, t) → u <:+ s → u <:+ t

omit hu hc in
/-- So do members. -/
def MembersBefore (u : List Char) (fuel : Nat) : Prop :=
  ∀ s members t, readMembers fuel s = some (members, t) → u <:+ s → u <:+ t

variable (hwhole : ∀ fuel s v t, skip s = u → readValue fuel s = some (v, t) → t = [])
  {fuel : Nat} (hvalues : ValuesBefore u (c :: rest) fuel) (hitemsBefore : ItemsBefore u fuel)
  (hmembersBefore : MembersBefore u fuel)

include hwhole hvalues

omit hu in
/-- Before elements a value ends in front of the object: behind it there is nothing that could
close them. -/
theorem ValuesBefore.items {s t last : List Char} {v : Json} {items : List Json}
    (h : readValue fuel s = some (v, t)) (hs : u <:+ s)
    (hitems : readItems fuel t = some (items, last)) : u <:+ t := by
  by_cases hobject : skip s = u
  · rw [hwhole fuel s v t hobject h] at hitems
    exact absurd rfl (ne_nil_of_readItems hitems)
  · rcases hvalues s v t h hs hobject with ht | rfl
    · exact ht
    · rw [readItems_letter hc] at hitems
      cases hitems

omit hu in
theorem ValuesBefore.members {s t last : List Char} {v : Json}
    {members : List (Option String × Json)} (h : readValue fuel s = some (v, t)) (hs : u <:+ s)
    (hmembers : readMembers fuel t = some (members, last)) : u <:+ t := by
  by_cases hobject : skip s = u
  · rw [hwhole fuel s v t hobject h] at hmembers
    exact absurd rfl (ne_nil_of_readMembers hmembers)
  · rcases hvalues s v t h hs hobject with ht | rfl
    · exact ht
    · rw [readMembers_letter hc] at hmembers
      cases hmembers

include hitemsBefore in
theorem ItemsBefore.succ : ItemsBefore u (fuel + 1) := by
  intro s items t h hs
  have hskip := suffix_of_skip hu hs
  cases itemsRead h with
  | close hclose => exact suffix_tail hu (by decide) (hclose ▸ hskip)
  | comma hcomma hitem hitems =>
    have hfirst := suffix_tail hu (by decide) (hcomma ▸ hskip)
    exact hitemsBefore _ _ _ hitems (hvalues.items hc hwhole hitem hfirst hitems)

include hmembersBefore in
theorem MembersBefore.succ : MembersBefore u (fuel + 1) := by
  intro s members t h hs
  have hskip := suffix_of_skip hu hs
  cases membersRead h with
  | close hclose => exact suffix_tail hu (by decide) (hclose ▸ hskip)
  | comma hcomma hkey hvalue hmembers =>
    have hfirst := suffix_tail hu (by decide) (hcomma ▸ hskip)
    have hnext := suffix_of_readKey hu hc hkey hfirst
    exact hmembersBefore _ _ _ hmembers (hvalues.members hc hwhole hvalue hnext hmembers)

include hitemsBefore hmembersBefore in
theorem ValuesBefore.succ : ValuesBefore u (c :: rest) (fuel + 1) := by
  intro s v t h hs hobject
  have hskip := suffix_of_skip hu hs
  cases valueRead h with
  | null hnull =>
    rw [hnull] at hskip
    have hskip := suffix_tail hu (by decide) (suffix_tail hu (by decide) hskip)
    exact Or.inl (suffix_tail hu (by decide) (suffix_tail hu (by decide) hskip))
  | true htrue =>
    rw [htrue] at hskip
    have hskip := suffix_tail hu (by decide) (suffix_tail hu (by decide) hskip)
    exact Or.inl (suffix_tail hu (by decide) (suffix_tail hu (by decide) hskip))
  | false hfalse =>
    rw [hfalse] at hskip
    have hskip := suffix_tail hu (by decide) (suffix_tail hu (by decide) hskip)
    have hskip := suffix_tail hu (by decide) (suffix_tail hu (by decide) hskip)
    exact Or.inl (suffix_tail hu (by decide) hskip)
  | text hquote htext =>
    exact suffix_of_readText hu htext (suffix_tail hu (by decide) (hquote ▸ hskip))
  | arrayNil hopen hclose =>
    have hinside := suffix_tail hu (by decide) (hopen ▸ hskip)
    exact Or.inl (suffix_tail hu (by decide) (hclose ▸ suffix_of_skip hu hinside))
  | array hopen _ _ hitem hitems =>
    have hinside := suffix_tail hu (by decide) (hopen ▸ hskip)
    exact Or.inl (hitemsBefore _ _ _ hitems (hvalues.items hc hwhole hitem hinside hitems))
  | objectNil hopen hclose =>
    rw [hopen] at hskip hobject
    have hinside := (List.suffix_cons_iff.1 hskip).resolve_left (Ne.symm hobject)
    exact Or.inl (suffix_tail hu (by decide) (hclose ▸ suffix_of_skip hu hinside))
  | object hopen _ _ hkey hvalue hmembers =>
    rw [hopen] at hskip hobject
    have hinside := (List.suffix_cons_iff.1 hskip).resolve_left (Ne.symm hobject)
    have hnext := suffix_of_readKey hu hc hkey hinside
    exact Or.inl (hmembersBefore _ _ _ hmembers
      (hvalues.members hc hwhole hvalue hnext hmembers))
  | number hdigit hnumber => exact Or.inl (suffix_of_number hu hnumber (hdigit ▸ hskip))

omit hvalues in
/-- Where values, elements and members end that start in front of an object, whatever the fuel. -/
theorem read_before (fuel : Nat) :
    ValuesBefore u (c :: rest) fuel ∧ ItemsBefore u fuel ∧ MembersBefore u fuel := by
  induction fuel with
  | zero =>
    refine ⟨?_, ?_, ?_⟩
    · intro _ _ _ h
      cases h
    · intro _ _ _ h
      cases h
    · intro _ _ _ h
      cases h
  | succ fuel ih =>
    obtain ⟨hvalues, hitems, hmembers⟩ := ih
    exact ⟨hvalues.succ hu hc hwhole hitems hmembers, hitems.succ hu hc hwhole hvalues,
      hmembers.succ hu hc hwhole hvalues⟩

end

/-! ## §4. Objects that were written -/

/-- Blanks in front of a value make no difference to it. -/
theorem readValue_of_skip {s t : List Char} (h : skip s = skip t) (fuel : Nat) :
    readValue fuel s = readValue fuel t := by
  cases fuel with
  | zero => rfl
  | succ fuel => rw [readValue, readValue, h]

/-- Whatever is read of a record with blanks in front of it is the whole record. -/
theorem eq_nil_of_readValue_record {members : List (String × Json)}
    (h : (record members).Regular) {fuel : Nat} {s t : List Char} {v : Json}
    (hs : skip s = (record members).write) (hread : readValue fuel s = some (v, t)) : t = [] := by
  obtain ⟨rest, hbrace⟩ := write_record_cons members
  have hskip : skip (record members).write = (record members).write := by
    rw [hbrace]
    exact skip_cons (by decide) rest
  rw [readValue_of_skip (hs.trans hskip.symm)] at hread
  -- with more fuel the same is read, and with enough of it the record
  have hsame := (read_append fuel).1 _ v t hread (fuel + (record members).write.length + 1) []
    (by omega) fun _ _ => rfl
  have hwhole := h.readsBack (fuel + (record members).write.length + 1) []
    (by rw [List.append_nil]; omega) ends_nil
  rw [hwhole, List.append_nil] at hsame
  injection hsame with hsame
  injection hsame with _ hnil
  exact hnil.symm

/-- A text that ends in a record, with more than blanks in front of it, spells nothing. -/
theorem read_preceded {members : List (String × Json)} (h : (record members).Regular) {c : Char}
    {rest : List Char} (hwrite : (record members).write = '\x7b' :: '"' :: c :: rest)
    (hc : c.isAlpha = true) {s : List Char} (hs : (record members).write <:+ s)
    (hfront : skip s ≠ (record members).write) : read s = none := by
  have hvalues := (read_before hwrite hc
    (fun _ _ _ _ hskip hread => eq_nil_of_readValue_record h hskip hread) (s.length + 1)).1
  unfold read
  split
  next v t hread =>
    have hleft : skip t ≠ [] := by
      rcases hvalues s v t hread hs hfront with ht | rfl
      · have hskip := suffix_of_skip hwrite ht
        intro hnil
        rw [hnil, List.suffix_nil, hwrite] at hskip
        cases hskip
      · rw [(not_mark hc rest).1]
        exact List.cons_ne_nil c rest
    simp [hleft]
  next => rfl

end Json

end BrokerTopology
