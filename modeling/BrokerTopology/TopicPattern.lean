/-
  BrokerTopology.TopicPattern — routing keys and patterns of dotted
  words.

  A key is cut into words at its dots.  In a pattern the word `*` stands
  for exactly one word of the key and the word `#` for any number of
  them, none included; every other word stands for itself.

  What a match is, `matchWords` says; it tries every number of words for
  every `#`.  What is run is `matchSuffixes`, which goes through the
  pattern once and answers for every end of the key together.

  Main statements:
    * `matchWords_nil` — the empty pattern matches the empty key alone.
    * `matchWords_cons_plain` — any other word takes one word of the key.
    * `matchSuffixes_eq` — what is run is what a match is.
    * `matchesKey_eq` — and so it is for a key as a whole.
-/
import BrokerTopology.Text

namespace BrokerTopology

namespace TopicPattern

/-! ## §1. What a match is -/

/-- A word of a key or a pattern. -/
abbrev Word := List Char

/-- The pattern word that stands for exactly one word. -/
def oneWord : Word := ['*']

/-- The pattern word that stands for any number of words. -/
def anyWords : Word := ['#']

/-- The words of a key or a pattern; an empty text is one empty word. -/
def words (text : String) : List Word :=
  Text.split '.' text.toList

/-- Every way to drop words from the front, the whole list first. -/
def suffixes : List Word → List (List Word)
  | [] => [[]]
  | w :: ws => (w :: ws) :: suffixes ws

/-- Whether a pattern word other than `#` stands for a word. -/
def matchWord (p w : Word) : Bool := p = oneWord || p = w

/-- Whether a pattern matches a key, word by word. -/
def matchWords : List Word → List Word → Bool
  | [], key => key.isEmpty
  | p :: ps, key =>
    if p = anyWords then (suffixes key).any fun rest => matchWords ps rest
    else
      match key with
      | [] => false
      | w :: ws => matchWord p w && matchWords ps ws

theorem matchWords_nil (key : List Word) : matchWords [] key = key.isEmpty := rfl

theorem matchWords_cons_plain {p : Word} (h : p ≠ anyWords) (ps : List Word) (w : Word)
    (ws : List Word) :
    matchWords (p :: ps) (w :: ws) = (matchWord p w && matchWords ps ws) := by
  simp [matchWords, h]

/-! ## §2. All ends of a key together -/

/-- For each place in a list whether something true stands there or later. -/
def anyFrom : List Bool → List Bool
  | [] => []
  | b :: bs =>
    let later := anyFrom bs
    (b || later.headD false) :: later

/-- For each end of a key whether its first word matches and what follows does too, given
whether each end matches what follows. -/
def matchFirst (p : Word) : List Word → List Bool → List Bool
  | [], _ => [false]
  | w :: ws, rest => (matchWord p w && rest.tail.headD false) :: matchFirst p ws rest.tail

/-- For each end of a key whether a pattern matches it, the whole key first. -/
def matchSuffixes : List Word → List Word → List Bool
  | [], key => (suffixes key).map List.isEmpty
  | p :: ps, key =>
    if p = anyWords then anyFrom (matchSuffixes ps key)
    else matchFirst p key (matchSuffixes ps key)

theorem headD_map_suffixes {α : Type} (f : List Word → α) (key : List Word) (a : α) :
    ((suffixes key).map f).headD a = f key := by
  cases key <;> rfl

theorem anyFrom_map (f : List Word → Bool) (key : List Word) :
    anyFrom ((suffixes key).map f) = (suffixes key).map fun rest => (suffixes rest).any f := by
  induction key with
  | nil => simp [suffixes, anyFrom]
  | cons w ws ih =>
    simp only [suffixes, List.map_cons, anyFrom, ih, headD_map_suffixes, List.any_cons]

theorem matchFirst_map {p : Word} (h : p ≠ anyWords) (ps key : List Word) :
    matchFirst p key ((suffixes key).map (matchWords ps)) =
      (suffixes key).map (matchWords (p :: ps)) := by
  induction key with
  | nil => simp [suffixes, matchFirst, matchWords, h]
  | cons w ws ih =>
    simp only [suffixes, List.map_cons, matchFirst, List.tail_cons, ih, headD_map_suffixes,
      matchWords_cons_plain h]

theorem matchSuffixes_eq (ps key : List Word) :
    matchSuffixes ps key = (suffixes key).map (matchWords ps) := by
  induction ps with
  | nil => rfl
  | cons p ps ih =>
    by_cases h : p = anyWords
    · simp only [matchSuffixes, h, if_true, ih, anyFrom_map]
      rfl
    · simp only [matchSuffixes, h, if_false, ih, matchFirst_map h]

/-! ## §3. Keys and patterns -/

/-- Whether a routing key matches a pattern. -/
def matchesKey (pattern key : String) : Bool :=
  (matchSuffixes (words pattern) (words key)).headD false

theorem matchesKey_eq (pattern key : String) :
    matchesKey pattern key = matchWords (words pattern) (words key) := by
  rw [matchesKey, matchSuffixes_eq, headD_map_suffixes]

end TopicPattern

end BrokerTopology
