import ExpiringStore.Store.Basic

/-!
# Runs of a store

A store is used by one operation after another, each at its own time. A `Store.Step` names an
operation with what it is given, `Store.step` carries it out and gives its answer, and `Store.run`
carries out a list of them.
-/

namespace ExpiringStore.Store

/-- An operation of a store. -/
inductive Step (α : Type u) where
  /-- Write a value. -/
  | set (key : Bytes) (value : α) (expiry : Option Expiry)
  /-- Read a value. -/
  | get (key : Bytes)
  /-- Remove an entry. -/
  | delete (key : Bytes)
  /-- Ask whether there is a live value. -/
  | contains (key : Bytes)
  /-- Ask how many entries are held. -/
  | length
  /-- Ask whether no entry is held. -/
  | isEmpty
  /-- Remove all expired entries. -/
  | removeExpired
deriving DecidableEq

/-- What an operation answers. -/
inductive Answer (α : Type u) where
  /-- Yes or no. -/
  | truth (b : Bool)
  /-- A value, if there is one. -/
  | value (v : Option α)
  /-- A number of entries. -/
  | number (n : UInt64)
deriving DecidableEq

/-- Carries out one operation. -/
def step (s : Store α) (now : Instant) : Step α → Answer α × Store α
  | .set key value expiry =>
    let (created, s) := s.set now key value expiry
    (.truth created, s)
  | .get key =>
    let (value, s) := s.get now key
    (.value value, s)
  | .delete key =>
    let (removed, s) := s.delete key
    (.truth removed, s)
  | .contains key => (.truth (s.contains now key), s)
  | .length => (.number s.length, s)
  | .isEmpty => (.truth s.isEmpty, s)
  | .removeExpired =>
    let (removed, s) := s.removeExpired now
    (.number removed, s)

/-- Carries out operations, each at its time. -/
def run (s : Store α) : List (Instant × Step α) → List (Answer α) × Store α
  | [] => ([], s)
  | (now, operation) :: rest =>
    let (answer, s) := s.step now operation
    let (answers, s) := run s rest
    (answer :: answers, s)

end ExpiringStore.Store
