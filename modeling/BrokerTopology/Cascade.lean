/-
  BrokerTopology.Cascade — what goes away when something is removed.

  A removal takes bindings along, and an auto-delete exchange goes with
  its last binding.  What goes is planned on the topology as it stands;
  the plan is a list of removals, together with the durable changes they
  amount to, and nothing is removed before those are recorded.

  Planning runs in rounds.  A round takes out the entities that are
  pending, marking the exchanges that lose bindings, and then makes the
  marked exchanges pending that have none left.  There are at most as
  many rounds as the operation holds keys of entities, and one more.

  A plan may reach only entities that the operation holds; a key beyond
  them is noted, and the operation then holds that key as well and plans
  again.

  Main statements:
    * `round_nil` — with nothing pending and nothing marked, a round
      changes nothing.
-/
import BrokerTopology.EntityKey
import BrokerTopology.Mailboxes
import BrokerTopology.Topology

namespace BrokerTopology

/-! ## §1. Planning -/

/-- One thing that goes away, with the bindings it has left. -/
inductive Removal where
  | binding (b : Binding)
  | queue (name : String)
  | exchange (name : String)
deriving DecidableEq, Repr

/-- The state of the planning. -/
structure Cascade where
  /-- What the next round takes out. -/
  pending : KeySet := ∅
  /-- The exchanges that lost bindings in this round. -/
  marked : NameSet := ∅
  removed : KeySet := ∅
  removedBindings : BindingSet := ∅
  /-- Keys that were reached and are not held. -/
  missing : KeySet := ∅
  removals : List Removal := []
  ops : List DurableOp := []
deriving DecidableEq

namespace Cascade

/-- Note a key that is not held. -/
def reach (held : KeySet) (c : Cascade) (key : EntityKey) : Cascade :=
  if held.contains key then c else { c with missing := c.missing.insert key }

/-- Take an entity up for removal. -/
def schedule (c : Cascade) (key : EntityKey) : Cascade :=
  if c.removed.contains key then c else { c with pending := c.pending.insert key }

/-- Plan a binding away that goes with its queue. -/
def dropWithQueue (held : KeySet) (c : Cascade) (b : Binding) : Cascade :=
  -- a binding between two entities that both go away is met twice
  if c.removedBindings.contains b then c
  else if held.contains (.exchange b.exchange) then
    { c with marked := c.marked.insert b.exchange, removedBindings := c.removedBindings.insert b }
  else c.reach held (.exchange b.exchange)

/-- Plan a binding away that goes with its exchange. -/
def dropWithExchange (held : KeySet) (c : Cascade) (b : Binding) : Cascade :=
  if c.removedBindings.contains b then c
  else if held.contains (.queue b.queue) then
    { c with removedBindings := c.removedBindings.insert b }
  else c.reach held (.queue b.queue)

/-- Enter an entity as removed. -/
def enter (c : Cascade) (key : EntityKey) (removal : Removal) (op : Option DurableOp) : Cascade :=
  { c with
    removed := c.removed.insert key
    removals := c.removals ++ [removal]
    ops := c.ops ++ op.toList }

/-- Plan a queue away, and its bindings with it. -/
def takeQueue (t : Topology) (held : KeySet) (c : Cascade) (name : String) : Cascade :=
  match t.registry.queue? name with
  | none => c
  | some q =>
    ((t.bindings.ofQueue name).foldl (dropWithQueue held) c).enter (.queue name) (.queue name)
      (if q.definition.persistent then some (.deleteQueue name) else none)

/-- Plan an exchange away, and its bindings with it, unless it is built in. -/
def takeExchange (t : Topology) (held : KeySet) (c : Cascade) (name : String) : Cascade :=
  match t.registry.exchange? name with
  | none => c
  | some x =>
    -- a built-in exchange can be marked, but never goes away
    if x.builtin then c
    else
      ((t.bindings.ofExchange name).foldl (dropWithExchange held) c).enter (.exchange name)
        (.exchange name) (if x.definition.durable then some (.deleteExchange name) else none)

/-- Plan an entity away, once. -/
def take (t : Topology) (held : KeySet) (c : Cascade) (key : EntityKey) : Cascade :=
  -- a key that is not held is noted even for an entity that is planned away
  if !held.contains key then c.reach held key
  else if c.removed.contains key then c
  else
    match key with
    | .queue name => c.takeQueue t held name
    | .exchange name => c.takeExchange t held name

/-- How many bindings of an exchange are planned away. -/
def plannedOf (c : Cascade) (exchange : String) : Nat :=
  (c.removedBindings.toList.filter fun b => b.exchange == exchange).length

/-- Whether an exchange goes with its last binding, and has none left beside the planned ones. -/
def isOrphaned (t : Topology) (c : Cascade) (exchange : String) : Bool :=
  (t.registry.exchange? exchange).any Exchange.isAutoDeleted &&
    -- the count is of the topology as it stands, so the planned bindings are still in it
    t.references.bindingsOf exchange - c.plannedOf exchange == 0

/-- See whether a marked exchange goes away too. -/
def evaluate (t : Topology) (held : KeySet) (c : Cascade) (exchange : String) : Cascade :=
  if c.removed.contains (.exchange exchange) then c
  else if !held.contains (.exchange exchange) then c.reach held (.exchange exchange)
  else if c.isOrphaned t exchange then c.schedule (.exchange exchange)
  else c

/-- Take the pending entities out, then evaluate the marked exchanges. -/
def round (t : Topology) (held : KeySet) (c : Cascade) : Cascade :=
  -- what is made pending on the way waits for the next round
  let taken := c.pending.toList.foldl (take t held) { c with pending := ∅ }
  taken.marked.toList.foldl (evaluate t held) { taken with marked := ∅ }

/-- Rounds until nothing is pending, but no more than one above a limit. -/
def run (t : Topology) (held : KeySet) : Nat → Cascade → Cascade
  | 0, c => c.round t held
  | limit + 1, c =>
    let next := c.round t held
    if next.pending.isEmpty then next else run t held limit next

/-- Run a cascade while holding some keys. -/
def finish (t : Topology) (held : KeySet) (start : KeySet → Cascade) : Cascade :=
  run t held held.size (start held)

/-- Run a cascade, and again with the keys it reached beyond those held, so many times at
most. -/
def settle (t : Topology) (start : KeySet → Cascade) : Nat → KeySet → Cascade
  | 0, held => finish t held start
  | retries + 1, held =>
    let c := finish t held start
    -- the topology did not change meanwhile, so only the keys differ the next time
    if c.missing.isEmpty then c else settle t start retries (held ∪ c.missing)

/-! ## §2. Where a cascade starts -/

/-- Remove an entity. -/
def ofKey (key : EntityKey) (_ : KeySet) : Cascade := { pending := {key} }

/-- Remove a binding, and with it the exchange if it has no other. -/
def ofBinding (t : Topology) (b : Binding) (held : KeySet) : Cascade :=
  if held.contains (.exchange b.exchange) then
    { marked := {b.exchange}
      removedBindings := {b}
      removals := [.binding b]
      ops := if t.isPersistent b then [.unbind b] else [] }
  else Cascade.reach held {} (.exchange b.exchange)

/-- What an operation on a queue holds: the queue and the exchanges it is bound to. -/
def keysOfQueue (t : Topology) (name : String) : KeySet :=
  Std.ExtTreeSet.ofList
    (EntityKey.queue name :: (t.bindings.exchangesOf name).toList.map EntityKey.exchange) compare

/-- What an operation on an exchange holds: the exchange and the queues bound to it. -/
def keysOfExchange (t : Topology) (name : String) : KeySet :=
  Std.ExtTreeSet.ofList
    (EntityKey.exchange name :: (t.bindings.queuesOf name).toList.map EntityKey.queue) compare

/-- What an operation on a binding holds: its two ends. -/
def keysOfBinding (b : Binding) : KeySet :=
  Std.ExtTreeSet.ofList [EntityKey.exchange b.exchange, EntityKey.queue b.queue] compare

/-- Every retry holds one more end of a binding at least. -/
def retries (t : Topology) : Nat := 2 * t.bindings.size

/-- The removal of a queue. -/
def removingQueue (t : Topology) (name : String) : Cascade :=
  settle t (ofKey (.queue name)) (retries t) (keysOfQueue t name)

/-- The removal of an exchange. -/
def removingExchange (t : Topology) (name : String) : Cascade :=
  settle t (ofKey (.exchange name)) (retries t) (keysOfExchange t name)

/-- The removal of a binding. -/
def removingBinding (t : Topology) (b : Binding) : Cascade :=
  settle t (ofBinding t b) (retries t) (keysOfBinding b)

theorem round_nil (t : Topology) (held : KeySet) {c : Cascade} (hpending : c.pending = ∅)
    (hmarked : c.marked = ∅) : c.round t held = c := by
  obtain ⟨pending, marked, removed, removedBindings, missing, removals, ops⟩ := c
  obtain rfl : pending = ∅ := hpending
  obtain rfl : marked = ∅ := hmarked
  have keys : (∅ : KeySet).toList = [] := Std.ExtTreeSet.toList_eq_nil_iff.2 rfl
  have names : (∅ : NameSet).toList = [] := Std.ExtTreeSet.toList_eq_nil_iff.2 rfl
  simp [round, keys, names]

end Cascade

/-! ## §3. Removing -/

namespace Topology

/-- Carry out one removal.  What is removed takes along the bindings it still has. -/
def remove (t : Topology) : Removal → Topology
  | .binding b =>
    match t.bindings.remove? b with
    | none => t
    | some bindings => { t with bindings, references := t.references.bindingsRemoved b.exchange 1 }
  | .queue name =>
    -- bindings that the plan did not list go all the same, and are counted off one by one
    let (removed, bindings) := t.bindings.removeQueue name
    let references := removed.foldl (fun r b => r.bindingsRemoved b.exchange 1) t.references
    { registry := t.registry.eraseQueue name, bindings, references := references.forgetQueue name }
  | .exchange name =>
    { registry := t.registry.eraseExchange name
      bindings := (t.bindings.removeExchange name).2
      references := t.references.forgetExchange name }

end Topology

/-- The messages left after a removal: those of a removed queue are dropped. -/
def Mailboxes.remove (m : Mailboxes) : Removal → Mailboxes
  | .queue name => m.clear name
  | _ => m

end BrokerTopology
