import Std.Data.ExtTreeMap
import ExpiringStore.Bytes
import ExpiringStore.Store.Entry

/-!
# The store

A store keeps entries under keys. The keys are spread over a fixed number of shards by a placement,
which is part of the store and never changes; `Store.find?` is the view through which a store is
judged: the entry held under a key, expired or not.

Every operation is given the time. `get` and `contains` answer as if an expired entry were not
there; `get` removes one that it meets, and `removeExpired` removes all of them. Beside the entries
the store keeps five counters. `keys` follows the number of entries held; the others count calls of
`get`, `set` and `delete`, and entries removed because they had expired.
-/

namespace ExpiringStore

/-- The number of shards of a store. -/
abbrev shardCount : Nat := 64

/-- Which shard each key belongs to. -/
abbrev Placement := Bytes → Fin shardCount

/-- A placement that mixes all bytes of the key. -/
def Placement.mixing : Placement := fun key =>
  Fin.ofNat 64 (key.foldl (fun (h : UInt64) b => (h ^^^ b.toUInt64) * 0x100000001b3)
    0xcbf29ce484222325 >>> 32).toNat

/-- The entries of one shard. -/
abbrev Shard (α : Type u) := Std.ExtTreeMap Bytes (Entry α)

/-- What a store counts, in 64-bit words. -/
structure Counters where
  /-- Entries held, expired ones included. -/
  keys : UInt64
  /-- Calls of `get`. -/
  gets : UInt64
  /-- Calls of `set`. -/
  sets : UInt64
  /-- Calls of `delete`. -/
  dels : UInt64
  /-- Entries removed because they had expired. -/
  expired : UInt64
deriving DecidableEq, Repr

/-- Nothing counted yet. -/
def Counters.zero : Counters := ⟨0, 0, 0, 0, 0⟩

/-- A store of entries that expire. -/
structure Store (α : Type u) where
  /-- Which shard each key belongs to. -/
  placement : Placement
  /-- How long an entry lives that is written without an expiry of its own. -/
  defaultExpiry : Expiry
  /-- The entries. -/
  shards : Vector (Shard α) shardCount
  /-- The counters. -/
  counters : Counters

namespace Store

/-- A store without entries. -/
def empty (placement : Placement) (defaultExpiry : Expiry) : Store α :=
  ⟨placement, defaultExpiry, .replicate shardCount ∅, .zero⟩

/-- The shard that a key belongs to. -/
def shard (s : Store α) (key : Bytes) : Shard α := s.shards[s.placement key]

/-- The entry held under a key, expired or not. -/
def find? (s : Store α) (key : Bytes) : Option (Entry α) := (s.shard key)[key]?

/-- The number of entries held, over all shards. -/
def size (s : Store α) : Nat := s.shards.toList.foldr (fun shard n => shard.size + n) 0

/-- The store with another shard for `key`. -/
def setShard (s : Store α) (key : Bytes) (shard : Shard α) : Store α :=
  { s with shards := s.shards.set (s.placement key) shard }

/-- The store with other counters. -/
def count (s : Store α) (f : Counters → Counters) : Store α :=
  { s with counters := f s.counters }

/-- Puts an entry under a key. -/
def insertEntry (s : Store α) (key : Bytes) (e : Entry α) : Store α :=
  s.setShard key ((s.shard key).insert key e)

/-- Drops the entry under a key. -/
def eraseEntry (s : Store α) (key : Bytes) : Store α :=
  s.setShard key ((s.shard key).erase key)

/-- Writes a value and tells whether nothing was held under its key. What was held is replaced,
expired or not. -/
def set (s : Store α) (now : Instant) (key : Bytes) (value : α) (expiry : Option Expiry) :
    Bool × Store α :=
  let created := (s.find? key).isNone
  let stored := s.insertEntry key (.written now value (expiry.getD s.defaultExpiry))
  (created, stored.count fun c =>
    { c with sets := c.sets + 1, keys := if created then c.keys + 1 else c.keys })

/-- Removes what is held under a key and tells whether there was anything, expired or not. -/
def delete (s : Store α) (key : Bytes) : Bool × Store α :=
  if (s.find? key).isSome then
    (true, (s.eraseEntry key).count fun c => { c with dels := c.dels + 1, keys := c.keys - 1 })
  else
    (false, s.count fun c => { c with dels := c.dels + 1 })

/-- The live value under a key. An expired entry is removed on the way. -/
def get (s : Store α) (now : Instant) (key : Bytes) : Option α × Store α :=
  match s.find? key with
  | none => (none, s.count fun c => { c with gets := c.gets + 1 })
  | some e =>
    if e.expired now then
      (none, (s.eraseEntry key).count fun c =>
        { c with gets := c.gets + 1, keys := c.keys - 1, expired := c.expired + 1 })
    else (some e.value, s.count fun c => { c with gets := c.gets + 1 })

/-- Whether there is a live value under a key. -/
def contains (s : Store α) (now : Instant) (key : Bytes) : Bool :=
  match s.find? key with
  | none => false
  | some e => !e.expired now

/-- The number of entries held, as the counters have it. -/
def length (s : Store α) : UInt64 := s.counters.keys

/-- Whether no entry is held, as the counters have it. -/
def isEmpty (s : Store α) : Bool := s.length == 0

/-- The store without its expired entries; the counters are left alone. -/
def live (s : Store α) (now : Instant) : Store α :=
  { s with shards := s.shards.map (·.filter fun _ e => !e.expired now) }

/-- Removes all expired entries and tells how many there were. -/
def removeExpired (s : Store α) (now : Instant) : UInt64 × Store α :=
  let kept := s.live now
  let removed := UInt64.ofNat (s.size - kept.size)
  (removed, kept.count fun c =>
    { c with keys := c.keys - removed, expired := c.expired + removed })

end Store

end ExpiringStore
