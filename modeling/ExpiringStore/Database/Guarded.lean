import ExpiringStore.Database.Basic

/-!
# A database behind a guard

A guard refuses chosen operations on chosen keys before the database sees them. Users are checked
without asking the guard.
-/

namespace ExpiringStore

/-- The operations that a guard refuses, by operation and key. -/
abbrev Guard := Operation → String → Bool

namespace Guard

/-- One kind of operation that is refused, on one key or on all. -/
structure Refusal where
  /-- The operation. -/
  operation : Operation
  /-- The key, or `none` for every key. -/
  key : Option String
deriving DecidableEq

/-- The guard that refuses what is listed. -/
def ofList (refusals : List Refusal) : Guard := fun operation key =>
  refusals.any fun r => r.operation = operation ∧ (r.key = none ∨ r.key = some key)

end Guard

/-- The database behind a guard. -/
def Database.guarded {σ : Type u} (db : Database σ) (refuses : Guard) : Database σ where
  set s key value ttl :=
    if refuses .write key then (.error ⟨.write⟩, s) else db.set s key value ttl
  get s key := if refuses .read key then (.error ⟨.read⟩, s) else db.get s key
  delete s key := if refuses .delete key then (.error ⟨.delete⟩, s) else db.delete s key
  authenticate := db.authenticate

end ExpiringStore
