/-
  BrokerTopology.Durable.Record — durable changes and log entries as JSON
  records.

  A change is written as an object whose member `op` names the change,
  beside the fields of that change.  The fields that stand beside `op`
  are read only once it is known, so all of them must be plain, those
  that are passed over included.

  Main statements:
    * `readOp_writeOp` — a change reads back as itself.
    * `readEntry_writeEntry` — so does an entry.
-/
import BrokerTopology.Durable.Op
import BrokerTopology.Record

namespace BrokerTopology

namespace Record

/-! ## §1. Changes -/

/-- How deep a document may be nested that is read into a record. -/
def maxNesting : Nat := 127

/-- The fields that a change has beside its name. -/
def opFields : String → Option (List String)
  | "declare_exchange" => some ["name", "kind", "auto_delete"]
  | "delete_exchange" => some ["name"]
  | "declare_queue" => some ["name", "auto_delete"]
  | "delete_queue" => some ["name"]
  | "bind" => some bindingFields
  | "unbind" => some bindingFields
  | _ => none

/-- A change from its name and the values of its fields. -/
def opOfFields (tag : String) (fields : List Json) : Option DurableOp :=
  match tag, fields with
  | "declare_exchange", [name, kind, autoDelete] => do
    let name ← name.str?
    let kind ← readKind Json.isVoid kind
    let autoDelete ← autoDelete.bool?
    pure (.declareExchange name kind autoDelete)
  | "delete_exchange", [name] => name.str?.map .deleteExchange
  | "declare_queue", [name, autoDelete] => do
    let name ← name.str?
    let autoDelete ← autoDelete.bool?
    pure (.declareQueue name autoDelete)
  | "delete_queue", [name] => name.str?.map .deleteQueue
  | "bind", fields => (bindingOfFields fields).map .bind
  | "unbind", fields => (bindingOfFields fields).map .unbind
  | _, _ => none

/-- The change that a document records, with so much room for nesting. -/
def readOp (room : Nat) : Json → Option DurableOp
  | .object members => do
    let tag ← (← Json.only? members "op").str?
    -- the name may stand anywhere among the members
    let others := members.filter fun m => m.1 != some "op"
    if 0 < room && Json.plainMembers (room - 1) others then
      opOfFields tag (← (Json.object others).fields? (← opFields tag))
    else none
  | .array (tag :: fields) => do
    let tag ← tag.str?
    if 0 < room && Json.plainItems (room - 1) fields then
      opOfFields tag (← (Json.array fields).fields? (← opFields tag))
    else none
  | _ => none

/-- The name of a change. -/
def opTag : DurableOp → String
  | .declareExchange .. => "declare_exchange"
  | .deleteExchange _ => "delete_exchange"
  | .declareQueue .. => "declare_queue"
  | .deleteQueue _ => "delete_queue"
  | .bind _ => "bind"
  | .unbind _ => "unbind"

/-- The members of a change beside its name. -/
def opMembers : DurableOp → List (String × Json)
  | .declareExchange name kind autoDelete =>
    [("name", .str name), ("kind", writeKind kind), ("auto_delete", .bool autoDelete)]
  | .deleteExchange name => [("name", .str name)]
  | .declareQueue name autoDelete => [("name", .str name), ("auto_delete", .bool autoDelete)]
  | .deleteQueue name => [("name", .str name)]
  | .bind b => bindingMembers b
  | .unbind b => bindingMembers b

/-- A change as a document. -/
def writeOp (op : DurableOp) : Json :=
  .record (("op", .str (opTag op)) :: opMembers op)

/-! ## §2. Entries -/

/-- A sequence number fits into 64 bits. -/
def seqBound : Nat := Word.bound64

/-- The entry that a document records. -/
def readEntry (v : Json) : Option JournalEntry := do
  match ← v.fields? ["seq", "ops"] with
  | [seq, ops] =>
    let seq ← seq.natBelow? seqBound
    -- the entry and its list of changes take up two levels
    let ops ← (← ops.items?).mapM (readOp (maxNesting - 2))
    pure { seq, ops }
  | _ => none

/-- An entry as a document. -/
def writeEntry (e : JournalEntry) : Json :=
  .record [("seq", .nat e.seq), ("ops", .array (e.ops.map writeOp))]

/-! ## §3. Writing and reading -/

theorem readOp_writeOp {room : Nat} (h : 0 < room) (op : DurableOp) :
    readOp room (writeOp op) = some op := by
  obtain ⟨room, rfl⟩ : ∃ r, room = r + 1 := ⟨room - 1, by omega⟩
  cases op with
  | declareExchange name kind autoDelete => cases kind <;> rfl
  | deleteExchange name => rfl
  | declareQueue name autoDelete => rfl
  | deleteQueue name => rfl
  | bind b => cases b; rfl
  | unbind b => cases b; rfl

theorem readOps_writeOps {room : Nat} (h : 0 < room) (ops : List DurableOp) :
    ops.mapM (readOp room ∘ writeOp) = some ops := by
  induction ops with
  | nil => rfl
  | cons op ops ih => simp [readOp_writeOp h, ih]

theorem readEntry_writeEntry {e : JournalEntry} (h : e.seq < seqBound) :
    readEntry (writeEntry e) = some e := by
  have hseq : (Json.nat e.seq).natBelow? seqBound = some e.seq := Json.natBelow?_nat h
  have hfields : (writeEntry e).fields? ["seq", "ops"] =
      some [.nat e.seq, .array (e.ops.map writeOp)] := rfl
  have hops : e.ops.mapM (readOp (maxNesting - 2) ∘ writeOp) = some e.ops :=
    readOps_writeOps (by decide) e.ops
  simp [readEntry, hfields, hseq, Json.items?, hops]

end Record

end BrokerTopology
