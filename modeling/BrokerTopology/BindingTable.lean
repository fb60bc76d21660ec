/-
  BrokerTopology.BindingTable — a set of bindings under two indexes.

  Routing asks for the bindings of an exchange and a deletion for those
  of a queue, so the table files every binding twice: under its
  exchange and under its queue.  An index never keeps an empty bucket,
  and the number of bindings is counted along.

  Listings come in the order of bindings, and the removal of a whole
  bucket hands back what it removed in that order.

  Main statements:
    * `mem_bucket_file` / `mem_bucket_unfile` — what filing a binding
      and taking one out do to the buckets of an index.
    * `bucket_erase` — dropping a bucket empties it and no other.
-/
import BrokerTopology.Binding

namespace BrokerTopology

/-! ## §1. One index -/

/-- The bindings filed under each name; no bucket is empty. -/
abbrev BindingIndex := NameMap BindingSet

namespace BindingIndex

/-- The bindings filed under a name. -/
def bucket (index : BindingIndex) (name : String) : BindingSet :=
  index[name]?.getD ∅

/-- File a binding under a name. -/
def file (index : BindingIndex) (name : String) (b : Binding) : BindingIndex :=
  index.insert name ((index.bucket name).insert b)

/-- Take a binding out from under a name, and the bucket with it if it was the last. -/
def unfile (index : BindingIndex) (name : String) (b : Binding) : BindingIndex :=
  -- an empty bucket would tell two equal tables apart
  let rest := (index.bucket name).erase b
  if rest.isEmpty then index.erase name else index.insert name rest

theorem bucket_insert (index : BindingIndex) (name other : String) (s : BindingSet) :
    bucket (index.insert name s) other = if name = other then s else index.bucket other := by
  by_cases h : name = other <;> simp [bucket, Std.ExtTreeMap.getElem?_insert, h]

theorem bucket_erase (index : BindingIndex) (name other : String) :
    bucket (index.erase name) other = if name = other then ∅ else index.bucket other := by
  by_cases h : name = other <;> simp [bucket, Std.ExtTreeMap.getElem?_erase, h]

theorem mem_bucket_file {index : BindingIndex} {name other : String} {b c : Binding} :
    c ∈ (index.file name b).bucket other ↔
      (name = other ∧ b = c) ∨ c ∈ index.bucket other := by
  by_cases h : name = other
  · subst h
    simp [file, bucket_insert, Std.ExtTreeSet.mem_insert]
  · simp [file, bucket_insert, h]

theorem mem_bucket_unfile {index : BindingIndex} {name other : String} {b c : Binding} :
    c ∈ (index.unfile name b).bucket other ↔
      c ∈ index.bucket other ∧ ¬ (name = other ∧ b = c) := by
  by_cases h : name = other
  · subst h
    have key : c ∈ (index.bucket name).erase b ↔ b ≠ c ∧ c ∈ index.bucket name := by
      simp [Std.ExtTreeSet.mem_erase]
    by_cases hrest : ((index.bucket name).erase b).isEmpty = true
    · have hnot : c ∉ (index.bucket name).erase b := by
        rw [Std.ExtTreeSet.isEmpty_iff] at hrest
        simp [hrest]
      simp only [unfile, hrest, ↓reduceIte, bucket_erase]
      grind
    · simp only [unfile, hrest, Bool.false_eq_true, ↓reduceIte, bucket_insert]
      grind
  · simp only [unfile, h, false_and, not_false_eq_true, and_true]
    split <;> simp [bucket_erase, bucket_insert, h]

end BindingIndex

/-! ## §2. The table -/

/-- Every binding, filed by exchange and by queue. -/
structure BindingTable where
  byExchange : BindingIndex := ∅
  byQueue : BindingIndex := ∅
  size : Nat := 0
deriving DecidableEq

namespace BindingTable

/-- The table without bindings. -/
def empty : BindingTable := {}

/-- Whether a binding is in the table. -/
def contains (t : BindingTable) (b : Binding) : Bool :=
  (t.byExchange.bucket b.exchange).contains b

/-- Add a binding.  The flag tells whether it is new; if it is not, nothing changes. -/
def insert (t : BindingTable) (b : Binding) : Bool × BindingTable :=
  if t.contains b then (false, t)
  else (true,
    { byExchange := t.byExchange.file b.exchange b
      byQueue := t.byQueue.file b.queue b
      size := t.size + 1 })

/-- Remove exactly one binding, or answer `none` if it is not there. -/
def remove? (t : BindingTable) (b : Binding) : Option BindingTable :=
  if t.contains b then
    some
      { byExchange := t.byExchange.unfile b.exchange b
        byQueue := t.byQueue.unfile b.queue b
        size := t.size - 1 }
  else none

/-- The bindings of an exchange, in order. -/
def ofExchange (t : BindingTable) (exchange : String) : List Binding :=
  (t.byExchange.bucket exchange).toList

/-- The bindings of a queue, in order. -/
def ofQueue (t : BindingTable) (queue : String) : List Binding :=
  (t.byQueue.bucket queue).toList

/-- Remove the bindings of a queue, and hand them back. -/
def removeQueue (t : BindingTable) (queue : String) : List Binding × BindingTable :=
  let removed := t.ofQueue queue
  (removed,
    -- one index loses the whole bucket, the other the bindings one by one
    { byExchange := removed.foldl (fun index b => index.unfile b.exchange b) t.byExchange
      byQueue := t.byQueue.erase queue
      size := t.size - removed.length })

/-- Remove the bindings of an exchange, and hand them back. -/
def removeExchange (t : BindingTable) (exchange : String) : List Binding × BindingTable :=
  let removed := t.ofExchange exchange
  (removed,
    { byExchange := t.byExchange.erase exchange
      byQueue := removed.foldl (fun index b => index.unfile b.queue b) t.byQueue
      size := t.size - removed.length })

/-- The exchanges that a queue is bound to. -/
def exchangesOf (t : BindingTable) (queue : String) : NameSet :=
  .ofList ((t.ofQueue queue).map Binding.exchange)

/-- The queues that are bound to an exchange. -/
def queuesOf (t : BindingTable) (exchange : String) : NameSet :=
  .ofList ((t.ofExchange exchange).map Binding.queue)

/-- Every binding. -/
def toSet (t : BindingTable) : BindingSet :=
  .ofList (t.byExchange.toList.flatMap fun entry => entry.2.toList)

/-- Every binding, in order. -/
def toList (t : BindingTable) : List Binding :=
  t.toSet.toList

theorem insert_of_contains {t : BindingTable} {b : Binding} (h : t.contains b = true) :
    t.insert b = (false, t) := by
  simp [insert, h]

theorem remove?_eq_none_iff {t : BindingTable} {b : Binding} :
    t.remove? b = none ↔ t.contains b = false := by
  cases h : t.contains b <;> simp [remove?, h]

end BindingTable

end BrokerTopology
