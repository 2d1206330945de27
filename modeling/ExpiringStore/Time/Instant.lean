import ExpiringStore.Time.Duration

/-!
# Points in time

An instant is a reading of a monotonic clock: a signed 64-bit number of seconds and the nanoseconds
beyond them. Adding a duration carries full nanoseconds into the seconds and fails exactly where
the seconds would no longer fit.
-/

namespace ExpiringStore

/-- A point in time. -/
structure Instant where
  /-- Whole seconds. -/
  seconds : Int
  /-- Nanoseconds beyond them. -/
  subsecond : Nat
  /-- The seconds are a signed 64-bit number. -/
  seconds_ge : -0x8000000000000000 ≤ seconds
  /-- The seconds are a signed 64-bit number. -/
  seconds_lt : seconds < 0x8000000000000000
  /-- There is less than a second beyond them. -/
  subsecond_lt : subsecond < nanosPerSecond
deriving DecidableEq

namespace Instant

/-- The instant with clock reading zero. -/
def zero : Instant := ⟨0, 0, by decide, by decide, by decide⟩

instance : Inhabited Instant := ⟨zero⟩

/-- Nanoseconds since the clock reading zero, as an unbounded number. -/
def toNanos (t : Instant) : Int := t.seconds * nanosPerSecond + t.subsecond

instance : LE Instant :=
  ⟨fun a b => a.seconds < b.seconds ∨ a.seconds = b.seconds ∧ a.subsecond ≤ b.subsecond⟩

instance (a b : Instant) : Decidable (a ≤ b) :=
  inferInstanceAs
    (Decidable (a.seconds < b.seconds ∨ a.seconds = b.seconds ∧ a.subsecond ≤ b.subsecond))

/-- The instant a duration after `t`, if its seconds fit. -/
def add? (t : Instant) (d : Duration) : Option Instant :=
  let nanos := t.subsecond + d.subsecond
  let seconds := t.seconds + d.seconds + (nanos / nanosPerSecond : Nat)
  if h : seconds < 0x8000000000000000 then
    some ⟨seconds, nanos % nanosPerSecond,
      by have := t.seconds_ge; simp only [seconds, nanosPerSecond]; omega, h,
      Nat.mod_lt _ (by decide)⟩
  else none

/-- The instant a duration after `t`; the clock stays where it is if there is no such instant. -/
def later (t : Instant) (d : Duration) : Instant := (t.add? d).getD t

theorem le_iff_toNanos {a b : Instant} : a ≤ b ↔ a.toNanos ≤ b.toNanos := by
  have ha := a.subsecond_lt
  have hb := b.subsecond_lt
  show (a.seconds < b.seconds ∨ a.seconds = b.seconds ∧ a.subsecond ≤ b.subsecond) ↔ _
  simp only [toNanos, nanosPerSecond] at ha hb ⊢
  omega

/-- A sum that exists is the sum of the nanoseconds. -/
theorem toNanos_of_add? {t u : Instant} {d : Duration} (h : t.add? d = some u) :
    u.toNanos = t.toNanos + d.nanos := by
  simp only [add?] at h
  split at h
  · cases h
    simp only [toNanos, Duration.seconds, Duration.subsecond, nanosPerSecond]
    omega
  · simp at h

end Instant

end ExpiringStore
