/-!
# Lengths of time

A duration is a whole number of nanoseconds whose seconds fit in 64 bits. Halving drops half a
nanosecond; doubling fails where the result has no such representation.
-/

namespace ExpiringStore

/-- Nanoseconds in a second. -/
abbrev nanosPerSecond : Nat := 1000000000

/-- Nanoseconds in a millisecond. -/
abbrev nanosPerMilli : Nat := 1000000

/-- A length of time. -/
structure Duration where
  /-- The length in nanoseconds. -/
  nanos : Nat
  /-- The whole seconds of it fit in 64 bits. -/
  nanos_lt : nanos < UInt64.size * nanosPerSecond
deriving DecidableEq

namespace Duration

/-- The duration of so many nanoseconds, if it can be represented. -/
def ofNanos? (nanos : Nat) : Option Duration :=
  if h : nanos < UInt64.size * nanosPerSecond then some ⟨nanos, h⟩ else none

/-- The duration of so many milliseconds. -/
def ofMillis (ms : UInt64) : Duration :=
  ⟨ms.toNat * nanosPerMilli, by
    have := ms.toNat_lt
    simp only [UInt64.size, nanosPerMilli, nanosPerSecond]
    omega⟩

/-- The duration of so many seconds. -/
def ofSeconds (s : UInt64) : Duration :=
  ⟨s.toNat * nanosPerSecond, by
    have := s.toNat_lt
    simp only [UInt64.size, nanosPerSecond]
    omega⟩

/-- No time at all. -/
def zero : Duration := ⟨0, by decide⟩

instance : Inhabited Duration := ⟨zero⟩

/-- The whole seconds. -/
def seconds (d : Duration) : Nat := d.nanos / nanosPerSecond

/-- The nanoseconds beyond the whole seconds. -/
def subsecond (d : Duration) : Nat := d.nanos % nanosPerSecond

instance : LE Duration := ⟨fun a b => a.nanos ≤ b.nanos⟩

instance : LT Duration := ⟨fun a b => a.nanos < b.nanos⟩

instance (a b : Duration) : Decidable (a ≤ b) := inferInstanceAs (Decidable (a.nanos ≤ b.nanos))

instance (a b : Duration) : Decidable (a < b) := inferInstanceAs (Decidable (a.nanos < b.nanos))

instance : Min Duration := minOfLe

instance : Max Duration := maxOfLe

/-- Half of a duration, rounded down to a whole nanosecond. -/
def half (d : Duration) : Duration :=
  ⟨d.nanos / 2, by have := d.nanos_lt; omega⟩

/-- Twice a duration, if it can be represented. -/
def double? (d : Duration) : Option Duration := ofNanos? (2 * d.nanos)

theorem le_iff {a b : Duration} : a ≤ b ↔ a.nanos ≤ b.nanos := Iff.rfl

@[ext] theorem ext {a b : Duration} (h : a.nanos = b.nanos) : a = b := by
  cases a; cases b; cases h; rfl

@[simp] theorem nanos_ofMillis (ms : UInt64) : (ofMillis ms).nanos = ms.toNat * nanosPerMilli := rfl

@[simp] theorem nanos_half (d : Duration) : d.half.nanos = d.nanos / 2 := rfl

theorem subsecond_lt (d : Duration) : d.subsecond < nanosPerSecond :=
  Nat.mod_lt _ (by decide)

theorem nanos_min (a b : Duration) : (min a b).nanos = min a.nanos b.nanos := by
  show (if a ≤ b then a else b).nanos = _
  by_cases h : a ≤ b
  · rw [if_pos h, Nat.min_eq_left (le_iff.1 h)]
  · rw [if_neg h, Nat.min_eq_right (Nat.le_of_not_le h)]

theorem nanos_max (a b : Duration) : (max a b).nanos = max a.nanos b.nanos := by
  show (if a ≤ b then b else a).nanos = _
  by_cases h : a ≤ b
  · rw [if_pos h, Nat.max_eq_right (le_iff.1 h)]
  · rw [if_neg h, Nat.max_eq_left (Nat.le_of_not_le h)]

end Duration

end ExpiringStore
