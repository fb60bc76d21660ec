/-
  BrokerTopology.Json.Writer — the text of a JSON document.

  In the compact form nothing stands between the tokens; in the long
  form every element has a line of its own, indented by two blanks for
  each level.  In a text only the quote, the backslash and the control
  characters are escaped, those with a short escape by it; characters
  beyond ASCII stand for themselves.

  Main statements:
    * `escape_of_plain` — most characters stand for themselves.
-/
import BrokerTopology.Json.Value
import BrokerTopology.Hex

namespace BrokerTopology

namespace Json

/-! ## §1. Texts and numbers -/

/-- How a character is written inside a text. -/
def escape (c : Char) : List Char :=
  if c = '"' then ['\\', '"']
  else if c = '\\' then ['\\', '\\']
  else if c = '\x08' then ['\\', 'b']
  else if c = '\t' then ['\\', 't']
  else if c = '\n' then ['\\', 'n']
  else if c = '\x0c' then ['\\', 'f']
  else if c = '\r' then ['\\', 'r']
  -- the other control characters have no short escape
  else if c.toNat < 0x20 then '\\' :: 'u' :: Hex.fixed 4 c.toNat
  else [c]

/-- The inside of a text. -/
def escapeAll : List Char → List Char
  | [] => []
  | c :: rest => escape c ++ escapeAll rest

/-- A text between its quotes.  A text that is none is written empty. -/
def writeText (t : Option String) : List Char :=
  '"' :: escapeAll (t.getD "").toList ++ ['"']

/-- A number as it is spelled. -/
def writeNumber (n : Number) : List Char :=
  (if n.negative then ['-'] else []) ++ Nat.toDigits 10 n.whole ++
    (match n.fraction with
      | none => []
      | some digits => '.' :: digits) ++
    (match n.exponent with
      | none => []
      | some (negative, k) => 'e' :: (if negative then ['-'] else []) ++ Nat.toDigits 10 k)

/-- A character other than the quote, the backslash and the control characters. -/
def isUnescaped (c : Char) : Bool :=
  c != '"' && c != '\\' && 0x20 ≤ c.toNat

theorem escape_of_plain {c : Char} (h : isUnescaped c = true) : escape c = [c] := by
  simp only [isUnescaped, Bool.and_eq_true, bne_iff_ne, decide_eq_true_eq] at h
  obtain ⟨⟨hq, hb⟩, hc⟩ := h
  have hne : ∀ d : Char, d.toNat < 0x20 → c ≠ d := by
    intro d hd heq
    subst heq
    omega
  simp [escape, hq, hb, hne '\x08' (by decide), hne '\t' (by decide), hne '\n' (by decide),
    hne '\x0c' (by decide), hne '\r' (by decide), Nat.not_lt.2 hc]

/-! ## §2. The compact form -/

mutual

/-- A document with nothing between its tokens. -/
def write : Json → List Char
  | .null => "null".toList
  | .bool true => "true".toList
  | .bool false => "false".toList
  | .number n => writeNumber n
  | .text t => writeText t
  | .array [] => ['[', ']']
  | .array (item :: items) => '[' :: write item ++ writeItems items
  | .object [] => ['{', '}']
  | .object ((key, value) :: members) =>
    '{' :: writeText key ++ ':' :: write value ++ writeMembers members

/-- The elements after the first, and the closing bracket. -/
def writeItems : List Json → List Char
  | [] => [']']
  | item :: items => ',' :: write item ++ writeItems items

/-- The members after the first, and the closing brace. -/
def writeMembers : List (Option String × Json) → List Char
  | [] => ['}']
  | (key, value) :: members => ',' :: writeText key ++ ':' :: write value ++ writeMembers members

end

/-- The compact form as a string. -/
def compact (v : Json) : String := String.ofList v.write

/-! ## §3. The long form -/

/-- A new line at a level of nesting. -/
def newline (level : Nat) : List Char := '\n' :: List.replicate (2 * level) ' '

mutual

/-- A document with a line for each element, at a level of nesting. -/
def writeLong : Nat → Json → List Char
  | _, .array [] => ['[', ']']
  | level, .array (item :: items) =>
    '[' :: newline (level + 1) ++ writeLong (level + 1) item ++ writeLongItems level items
  | _, .object [] => ['{', '}']
  | level, .object ((key, value) :: members) =>
    '{' :: newline (level + 1) ++ writeText key ++ ':' :: ' ' :: writeLong (level + 1) value ++
      writeLongMembers level members
  | _, .null => "null".toList
  | _, .bool true => "true".toList
  | _, .bool false => "false".toList
  | _, .number n => writeNumber n
  | _, .text t => writeText t

/-- The elements after the first, and the closing bracket. -/
def writeLongItems : Nat → List Json → List Char
  | level, [] => newline level ++ [']']
  | level, item :: items =>
    ',' :: newline (level + 1) ++ writeLong (level + 1) item ++ writeLongItems level items

/-- The members after the first, and the closing brace. -/
def writeLongMembers : Nat → List (Option String × Json) → List Char
  | level, [] => newline level ++ ['}']
  | level, (key, value) :: members =>
    ',' :: newline (level + 1) ++ writeText key ++ ':' :: ' ' :: writeLong (level + 1) value ++
      writeLongMembers level members

end

/-- The long form as a string. -/
def long (v : Json) : String := String.ofList (v.writeLong 0)

end Json

end BrokerTopology
