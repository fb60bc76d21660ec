/-
  BrokerTopology.Proofs.TopicMatching — what it means for a pattern to
  match a key.

  A match is a way to cut the key: the words of the key fall into
  segments, one after the other, and each word of the pattern takes one
  of them.  `#` takes a segment of any length, `*` takes one word
  whatever it is, and any other word takes itself.

  What is run knows nothing of cuts.  It goes through the pattern and
  asks, at each `#`, which ends of the key the rest of the pattern
  matches.  An end of an end is an end, so a second `#` after a first
  asks nothing new, and a matcher may skip it.

  Main statements:
    * `matchWords_iff_cut` — a list of words is matched exactly if it can
      be cut.
    * `matchSkipping_eq` — runs of `#` are skipped without a difference.
    * `matchesKey_iff_segments` — both, for keys and patterns as texts.
-/
import BrokerTopology.TopicPattern
import Mathlib.Data.List.Forall2

namespace BrokerTopology

/-- The pieces of a text are those that the library cuts a list into. -/
theorem Text.split_eq_splitOn (sep : Char) (text : List Char) :
    split sep text = text.splitOn sep := by
  induction text with
  | nil => rfl
  | cons c rest ih =>
    rw [split, ih, List.splitOn, List.splitOn, List.splitOnP_cons_eq_if_modifyHead]
    by_cases hsep : c = sep
    · simp [hsep]
    · simp only [hsep, beq_iff_eq, if_false]
      -- there is always a piece to put the character in front of
      cases hpieces : List.splitOnP (· == sep) rest with
      | nil => exact absurd hpieces (List.splitOnP_ne_nil _ _)
      | cons piece pieces => rfl

namespace TopicPattern

/-! ## §1. Cutting a key -/

/-- Which segment of a key a word of a pattern may take. -/
inductive Takes : Word → List Word → Prop
  | any (segment : List Word) : Takes anyWords segment
  | one (w : Word) : Takes oneWord [w]
  | plain {p : Word} (hany : p ≠ anyWords) (hone : p ≠ oneWord) : Takes p [p]

/-- A key can be cut into segments that the words of a pattern take, in their order. -/
def Cut (pattern key : List Word) : Prop :=
  ∃ segments : List (List Word), segments.flatten = key ∧ List.Forall₂ Takes pattern segments

theorem cut_nil {key : List Word} : Cut [] key ↔ key = [] := by
  constructor
  · rintro ⟨segments, rfl, htakes⟩
    rw [List.forall₂_nil_left_iff.1 htakes]
    rfl
  · rintro rfl
    exact ⟨[], rfl, .nil⟩

/-- The first word takes a segment from the front, and what is left is cut by the others. -/
theorem cut_cons {p : Word} {ps key : List Word} :
    Cut (p :: ps) key ↔ ∃ segment rest, key = segment ++ rest ∧ Takes p segment ∧ Cut ps rest := by
  constructor
  · rintro ⟨segments, rfl, htakes⟩
    obtain ⟨segment, segments, hp, hps, rfl⟩ := List.forall₂_cons_left_iff.1 htakes
    exact ⟨segment, segments.flatten, rfl, hp, segments, rfl, hps⟩
  · rintro ⟨segment, rest, rfl, hp, segments, rfl, hps⟩
    exact ⟨segment :: segments, rfl, .cons hp hps⟩

theorem mem_suffixes {rest key : List Word} : rest ∈ suffixes key ↔ rest <:+ key := by
  induction key with
  | nil => simp [suffixes]
  | cons w ws ih => rw [suffixes, List.mem_cons, ih, List.suffix_cons_iff]

/-! ## §2. The two wildcards -/

theorem matchWords_cons_anyWords {ps key : List Word} :
    matchWords (anyWords :: ps) key = true ↔ ∃ rest, rest <:+ key ∧ matchWords ps rest = true := by
  simp only [matchWords, if_true, List.any_eq_true, mem_suffixes]

/-- A word other than `#` takes exactly one word, if it stands for it. -/
theorem takes_iff_of_ne_anyWords {p : Word} (hany : p ≠ anyWords) {segment : List Word} :
    Takes p segment ↔ ∃ w, segment = [w] ∧ matchWord p w = true := by
  constructor
  · intro htakes
    cases htakes with
    | any => exact absurd rfl hany
    | one w => exact ⟨w, rfl, by simp [matchWord]⟩
    | plain _ _ => exact ⟨p, rfl, by simp [matchWord]⟩
  · rintro ⟨w, rfl, hw⟩
    by_cases hone : p = oneWord
    · exact hone ▸ .one w
    · obtain rfl : p = w := by simpa [matchWord, hone] using hw
      exact .plain hany hone

/-- A list of words is matched exactly if it can be cut. -/
theorem matchWords_iff_cut {ps key : List Word} : matchWords ps key = true ↔ Cut ps key := by
  induction ps generalizing key with
  | nil => rw [matchWords_nil, List.isEmpty_iff, cut_nil]
  | cons p ps ih =>
    rw [cut_cons]
    by_cases hany : p = anyWords
    · subst hany
      rw [matchWords_cons_anyWords]
      constructor
      · rintro ⟨rest, ⟨segment, rfl⟩, hrest⟩
        exact ⟨segment, rest, rfl, .any segment, ih.1 hrest⟩
      · rintro ⟨segment, rest, rfl, -, hrest⟩
        exact ⟨rest, List.suffix_append segment rest, ih.2 hrest⟩
    · simp only [takes_iff_of_ne_anyWords hany]
      constructor
      · intro hmatch
        cases key with
        | nil => simp [matchWords, hany] at hmatch
        | cons w ws =>
          rw [matchWords_cons_plain hany, Bool.and_eq_true] at hmatch
          exact ⟨[w], ws, rfl, ⟨w, rfl, hmatch.1⟩, ih.1 hmatch.2⟩
      · rintro ⟨_, ws, rfl, ⟨w, rfl, hw⟩, hws⟩
        show matchWords (p :: ps) (w :: ws) = true
        rw [matchWords_cons_plain hany, hw, ih.2 hws]
        rfl

/-! ## §3. Runs of `#` -/

/-- The match that goes past a `#` when another one follows. -/
def matchSkipping : List Word → List Word → Bool
  | [], key => key.isEmpty
  | p :: ps, key =>
    if p = anyWords then
      if ps.head? = some anyWords then matchSkipping ps key
      else (suffixes key).any fun rest => matchSkipping ps rest
    else
      match key with
      | [] => false
      | w :: ws => matchWord p w && matchSkipping ps ws

/-- Two of them take what one takes. -/
theorem matchWords_anyWords_anyWords (ps key : List Word) :
    matchWords (anyWords :: anyWords :: ps) key = matchWords (anyWords :: ps) key := by
  rw [Bool.eq_iff_iff, matchWords_cons_anyWords]
  constructor
  · rintro ⟨rest, hrest, hmatch⟩
    obtain ⟨last, hlast, hmatch⟩ := matchWords_cons_anyWords.1 hmatch
    exact matchWords_cons_anyWords.2 ⟨last, hlast.trans hrest, hmatch⟩
  · intro hmatch
    exact ⟨key, List.suffix_refl key, hmatch⟩

theorem matchSkipping_eq (ps key : List Word) : matchSkipping ps key = matchWords ps key := by
  induction ps generalizing key with
  | nil => rfl
  | cons p ps ih =>
    unfold matchSkipping
    split
    next hany =>
      subst hany
      split
      next hnext =>
        obtain ⟨others, rfl⟩ := List.head?_eq_some_iff.1 hnext
        rw [ih, matchWords_anyWords_anyWords]
      next => simp only [ih, matchWords, if_true]
    next hany =>
      cases key with
      | nil => simp [matchWords, hany]
      | cons w ws => rw [matchWords_cons_plain hany, ← ih]

/-! ## §4. Keys and patterns as texts -/

/-- Cut both at their dots, where an empty text is one empty word: a key matches a pattern exactly
if its words fall into consecutive segments, one for each word of the pattern in order, of any
length for `#`, of one word for `*`, and of the word itself for any other.  To skip runs of `#`
makes no difference. -/
theorem matchesKey_iff_segments (pattern key : String) :
    (matchesKey pattern key = true ↔
      ∃ segments : List (List Word), segments.flatten = key.toList.splitOn '.' ∧
        List.Forall₂ Takes (pattern.toList.splitOn '.') segments) ∧
      matchSkipping (pattern.toList.splitOn '.') (key.toList.splitOn '.') =
        matchesKey pattern key := by
  rw [matchSkipping_eq, matchesKey_eq, matchWords_iff_cut, words, words,
    Text.split_eq_splitOn, Text.split_eq_splitOn]
  exact ⟨Iff.rfl, rfl⟩

example : matchesKey "#.#.*" "." = true ∧ matchesKey "*.*" "" = false := by decide

end TopicPattern

end BrokerTopology
