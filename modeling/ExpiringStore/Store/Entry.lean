import ExpiringStore.Time.Instant

/-!
# Entries that expire

An entry is a value with the instant from which it counts as gone, its deadline. A lifetime whose
end the clock cannot represent is no deadline at all, so such an entry stays.
-/

namespace ExpiringStore

/-- How long an entry lives. -/
inductive Expiry where
  /-- Until it is removed or replaced. -/
  | never
  /-- For so long after it was written. -/
  | after (ttl : Duration)
deriving DecidableEq

/-- The deadline of an entry written at `now`. -/
def Expiry.deadline (e : Expiry) (now : Instant) : Option Instant :=
  match e with
  | .never => none
  | .after ttl => now.add? ttl

/-- A stored value. -/
structure Entry (α : Type u) where
  /-- The value. -/
  value : α
  /-- When the entry expires, if ever. -/
  deadline : Option Instant
deriving DecidableEq

namespace Entry

/-- An entry written at `now`. -/
def written (now : Instant) (value : α) (expiry : Expiry) : Entry α :=
  ⟨value, expiry.deadline now⟩

/-- Whether the deadline has been reached. -/
def expired (now : Instant) (e : Entry α) : Bool :=
  match e.deadline with
  | none => false
  | some deadline => deadline ≤ now

end Entry

end ExpiringStore
