/-
  BrokerTopology.Json.Value — JSON documents as values.

  A value keeps what a reader may still have to judge.  A number is kept
  as it is spelled, because `1.0` is no whole number; a text whose
  escapes name half a surrogate pair is kept as a text that is none,
  because a member nobody looks at may hold one.

  Main statements:
    * `natural?_ofNat` — a whole number reads back as itself.
-/
import BrokerTopology.Word

namespace BrokerTopology

namespace Json

/-- A number as it is spelled: sign, whole part, digits after the point, exponent. -/
structure Number where
  negative : Bool := false
  whole : Nat
  fraction : Option (List Char) := none
  /-- The exponent, and whether it is negative. -/
  exponent : Option (Bool × Nat) := none
deriving DecidableEq

end Json

/-- A JSON document. -/
inductive Json where
  | null
  | bool (b : Bool)
  | number (n : Json.Number)
  /-- The characters of a text, or `none` if its escapes do not make up characters. -/
  | text (t : Option String)
  | array (items : List Json)
  | object (members : List (Option String × Json))

namespace Json

/-! ## §1. Numbers -/

namespace Number

/-- The spelling of a whole number. -/
def ofNat (n : Nat) : Number := { whole := n }

/-- The whole number that a spelling without sign, point and exponent stands for. -/
def natural? (n : Number) : Option Nat :=
  if n.negative || n.fraction.isSome || n.exponent.isSome then none else some n.whole

/-- Append a digit to a significand of at most 64 bits; the flag tells that it no longer fits. -/
def significandStep (acc : Bool × Nat × Int) (step : Int) (d : Char) : Bool × Nat × Int :=
  let (full, m, e) := acc
  -- once a digit does not fit, those that follow only count for the power of ten
  let longer := 10 * m + (d.toNat - '0'.toNat)
  if full || Word.bound64 ≤ longer then (true, m, e + step + 1) else (false, longer, e + step)

/-- The significand and the power of ten of a spelling.  Before the point and after it, digits
are dropped from the first one on that does not fit into 64 bits. -/
def scaled (n : Number) : Nat × Int :=
  let (_, m, e) :=
    (Nat.toDigits 10 n.whole).foldl (fun acc d => significandStep acc 0 d) (false, 0, 0)
  let (_, m, e) :=
    (n.fraction.getD []).foldl (fun acc d => significandStep acc (-1) d) (false, m, e)
  match n.exponent with
  | none => (m, e)
  | some (true, k) => (m, e - k)
  | some (false, k) => (m, e + k)

/-- The nearest number with 53 significant bits, a tie going to the even one. -/
def nearest (m : Nat) : Nat :=
  let unit := Nat.pow 2 (m.log2 - 52)
  let q := m / unit
  let r := m % unit
  if m.log2 ≤ 52 then m
  else if 2 * r < unit || (2 * r == unit && q % 2 == 0) then q * unit
  else (q + 1) * unit

/-- Whether the number is beyond every number of double precision. -/
def isOverlarge (n : Number) : Bool :=
  let (m, e) := n.scaled
  if m = 0 || e < 0 then false
  else if 308 < e then true
  else Nat.pow 2 1024 ≤ nearest (nearest m * nearest (Nat.pow 10 e.toNat))

theorem natural?_ofNat (n : Nat) : (ofNat n).natural? = some n := rfl

end Number

/-! ## §2. Building documents -/

/-- A whole number. -/
def nat (n : Nat) : Json := .number (.ofNat n)

/-- A text. -/
def str (s : String) : Json := .text (some s)

/-- An object with the given members, in that order. -/
def record (members : List (String × Json)) : Json :=
  .object (members.map fun (key, value) => (some key, value))

/-! ## §3. Reading a document as something else -/

/-- The whole number below a bound that a document is. -/
def natBelow? (bound : Nat) : Json → Option Nat
  | .number n => n.natural?.filter (· < bound)
  | _ => none

theorem natBelow?_nat {bound n : Nat} (h : n < bound) : (nat n).natBelow? bound = some n := by
  simp [nat, natBelow?, Number.natural?_ofNat, Option.filter, h]

/-- The text that a document is. -/
def str? : Json → Option String
  | .text t => t
  | _ => none

/-- The truth value that a document is. -/
def bool? : Json → Option Bool
  | .bool b => some b
  | _ => none

/-- The elements of an array. -/
def items? : Json → Option (List Json)
  | .array items => some items
  | _ => none

/-- The values of members with a given key. -/
def valuesOf (members : List (Option String × Json)) (key : String) : List Json :=
  (members.filter fun m => m.1 == some key).map Prod.snd

/-- The value of the only member with a given key. -/
def only? (members : List (Option String × Json)) (key : String) : Option Json :=
  match valuesOf members key with
  -- a member that is there twice counts as a mistake, not as a choice
  | [value] => some value
  | _ => none

/-- The fields of a record in the order of their names.  A record is an object that holds
each field once, beside members of other names, or an array of just the fields. -/
def fields? (names : List String) : Json → Option (List Json)
  | .object members =>
    if members.all fun m => m.1.isSome then names.mapM (only? members) else none
  | .array items => if items.length = names.length then some items else none
  | _ => none

/-- The name of a variant without contents: a text, or an object whose one member has that
name and nothing in it. -/
def variant? (nothing : Json → Bool) : Json → Option String
  | .text t => t
  | .object [(key, value)] => if nothing value then key else none
  | _ => none

/-- The document `null`. -/
def isNull : Json → Bool
  | .null => true
  | _ => false

/-- The document `null`, or an object without members. -/
def isVoid : Json → Bool
  | .null => true
  | .object [] => true
  | _ => false

/-! ## §4. Documents that can be kept whole -/

mutual

/-- Whether a document can be kept to be looked at later: its texts are texts, its numbers
have a nearest number of double precision, and it is nested no deeper than `room`. -/
def plain : Nat → Json → Bool
  | _, .null => true
  | _, .bool _ => true
  | _, .number n => !n.isOverlarge
  | _, .text t => t.isSome
  | 0, .array _ => false
  | room + 1, .array items => plainItems room items
  | 0, .object _ => false
  | room + 1, .object members => plainMembers room members

/-- The same for the elements of an array. -/
def plainItems : Nat → List Json → Bool
  | _, [] => true
  | room, item :: items => plain room item && plainItems room items

/-- The same for the members of an object. -/
def plainMembers : Nat → List (Option String × Json) → Bool
  | _, [] => true
  | room, (key, value) :: members =>
    key.isSome && plain room value && plainMembers room members

end

end Json

end BrokerTopology
