/-
  BrokerTopology.Json.Reader — the document that a text spells.

  The reader takes the grammar of JSON and nothing more: blanks are the
  space, the tab, the line feed and the carriage return, a number has no
  leading zero, control characters in a text must be escaped, and
  nothing but blanks may follow the document.

  Each function answers with what it read and with the text that
  follows.  The fuel of the recursion is the length of the text: every
  value takes up at least one character.
-/
import BrokerTopology.Json.Value
import BrokerTopology.Hex

namespace BrokerTopology

namespace Json

/-! ## §1. Blanks -/

/-- The blanks that may stand between tokens. -/
def isSpace (c : Char) : Bool :=
  c == ' ' || c == '\t' || c == '\n' || c == '\r'

/-- What follows the blanks at the front. -/
def skip : List Char → List Char
  | [] => []
  | c :: rest => if isSpace c then skip rest else c :: rest

/-! ## §2. Texts -/

/-- The number that four hexadecimal digits write. -/
def unit? (a b c d : Char) : Option Nat := do
  let a ← Hex.value? a
  let b ← Hex.value? b
  let c ← Hex.value? c
  let d ← Hex.value? d
  pure (((16 * a + b) * 16 + c) * 16 + d)

/-- The character of a short escape. -/
def shortEscape? : Char → Option Char
  | '"' => some '"'
  | '\\' => some '\\'
  | '/' => some '/'
  | 'b' => some '\x08'
  | 'f' => some '\x0c'
  | 'n' => some '\n'
  | 'r' => some '\r'
  | 't' => some '\t'
  | _ => none

/-- The inside of a text up to its closing quote, as code units. -/
def readUnits : List Char → Option (List Nat × List Char)
  | '"' :: rest => some ([], rest)
  -- half of a surrogate pair is fine here: it is judged when the text is put together
  | '\\' :: 'u' :: a :: b :: c :: d :: rest =>
    match unit? a b c d with
    | none => none
    | some unit => (readUnits rest).map fun (units, after) => (unit :: units, after)
  | '\\' :: c :: rest =>
    match shortEscape? c with
    | none => none
    | some e => (readUnits rest).map fun (units, after) => (e.toNat :: units, after)
  | c :: rest =>
    if c.toNat < 0x20 then none
    else (readUnits rest).map fun (units, after) => (c.toNat :: units, after)
  | [] => none

/-- The characters that code units make up; a surrogate counts only in a pair. -/
def joinUnits : List Nat → Option (List Char)
  | [] => some []
  | [u] => if 0xD800 ≤ u ∧ u ≤ 0xDFFF then none else some [Char.ofNat u]
  | u :: v :: rest =>
    if 0xD800 ≤ u ∧ u ≤ 0xDFFF then
      -- the first half of a pair must be followed by a second half
      if u ≤ 0xDBFF ∧ 0xDC00 ≤ v ∧ v ≤ 0xDFFF then
        (joinUnits rest).map
          (Char.ofNat (0x10000 + (u - 0xD800) * 0x400 + (v - 0xDC00)) :: ·)
      else none
    else (joinUnits (v :: rest)).map (Char.ofNat u :: ·)

/-- A text after its opening quote. -/
def readText (s : List Char) : Option (Option String × List Char) :=
  (readUnits s).map fun (units, rest) => ((joinUnits units).map String.ofList, rest)

/-! ## §3. Numbers -/

/-- The digits at the front, and what follows. -/
def spanDigits : List Char → List Char × List Char
  | [] => ([], [])
  | c :: rest =>
    if c.isDigit then
      let (digits, after) := spanDigits rest
      (c :: digits, after)
    else ([], c :: rest)

/-- The whole part of a number: digits without a leading zero. -/
def readWhole (s : List Char) : Option (Nat × List Char) :=
  match spanDigits s with
  | ([], _) => none
  -- a zero in front must be the only digit
  | ('0' :: _ :: _, _) => none
  | (digits, rest) => some (Nat.ofDigitChars 10 digits 0, rest)

/-- The digits after the point, if there is a point. -/
def readFraction : List Char → Option (Option (List Char) × List Char)
  | '.' :: rest =>
    match spanDigits rest with
    | ([], _) => none
    | (digits, after) => some (some digits, after)
  | s => some (none, s)

/-- The digits of an exponent after its sign. -/
def readPower (negative : Bool) (s : List Char) : Option (Option (Bool × Nat) × List Char) :=
  match spanDigits s with
  | ([], _) => none
  | (digits, rest) => some (some (negative, Nat.ofDigitChars 10 digits 0), rest)

/-- The exponent, if there is one. -/
def readExponent : List Char → Option (Option (Bool × Nat) × List Char)
  | c :: rest =>
    if c = 'e' ∨ c = 'E' then
      match rest with
      | '+' :: after => readPower false after
      | '-' :: after => readPower true after
      | _ => readPower false rest
    else some (none, c :: rest)
  | [] => some (none, [])

/-- A number without its sign. -/
def readUnsigned (negative : Bool) (s : List Char) : Option (Number × List Char) := do
  let (whole, s) ← readWhole s
  let (fraction, s) ← readFraction s
  let (exponent, s) ← readExponent s
  pure ({ negative, whole, fraction, exponent }, s)

/-- A number. -/
def readNumber : List Char → Option (Number × List Char)
  | '-' :: rest => readUnsigned true rest
  | s => readUnsigned false s

/-! ## §4. Documents -/

/-- The key of a member, and what follows its colon. -/
def readKey (s : List Char) : Option (Option String × List Char) :=
  match skip s with
  | '"' :: rest =>
    match readText rest with
    | none => none
    | some (key, rest) =>
      match skip rest with
      | ':' :: rest => some (key, rest)
      | _ => none
  | _ => none

mutual

/-- The value at the front of a text. -/
def readValue : Nat → List Char → Option (Json × List Char)
  | 0, _ => none
  | fuel + 1, s =>
    match skip s with
    | 'n' :: 'u' :: 'l' :: 'l' :: rest => some (.null, rest)
    | 't' :: 'r' :: 'u' :: 'e' :: rest => some (.bool true, rest)
    | 'f' :: 'a' :: 'l' :: 's' :: 'e' :: rest => some (.bool false, rest)
    | '"' :: rest => (readText rest).map fun (t, rest) => (.text t, rest)
    | '[' :: rest =>
      match skip rest with
      | ']' :: rest => some (.array [], rest)
      | _ =>
        match readValue fuel rest with
        | none => none
        | some (item, rest) =>
          (readItems fuel rest).map fun (items, rest) => (.array (item :: items), rest)
    | '{' :: rest =>
      match skip rest with
      | '}' :: rest => some (.object [], rest)
      | _ =>
        match readKey rest with
        | none => none
        | some (key, rest) =>
          match readValue fuel rest with
          | none => none
          | some (value, rest) =>
            (readMembers fuel rest).map fun (members, rest) =>
              (.object ((key, value) :: members), rest)
    -- whatever starts no other value can only be a number
    | rest => (readNumber rest).map fun (n, rest) => (.number n, rest)

/-- The elements after the first, up to the closing bracket. -/
def readItems : Nat → List Char → Option (List Json × List Char)
  | 0, _ => none
  | fuel + 1, s =>
    match skip s with
    | ']' :: rest => some ([], rest)
    | ',' :: rest =>
      match readValue fuel rest with
      | none => none
      | some (item, rest) =>
        (readItems fuel rest).map fun (items, rest) => (item :: items, rest)
    | _ => none

/-- The members after the first, up to the closing brace. -/
def readMembers : Nat → List Char → Option (List (Option String × Json) × List Char)
  | 0, _ => none
  | fuel + 1, s =>
    match skip s with
    | '}' :: rest => some ([], rest)
    | ',' :: rest =>
      match readKey rest with
      | none => none
      | some (key, rest) =>
        match readValue fuel rest with
        | none => none
        | some (value, rest) =>
          (readMembers fuel rest).map fun (members, rest) => ((key, value) :: members, rest)
    | _ => none

end

/-- The document that a whole text spells. -/
def read (s : List Char) : Option Json :=
  match readValue (s.length + 1) s with
  | some (v, rest) => if (skip rest).isEmpty then some v else none
  | none => none

/-- The document that a string spells. -/
def parse (s : String) : Option Json := read s.toList

end Json

end BrokerTopology
