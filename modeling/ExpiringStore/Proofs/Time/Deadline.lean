import ExpiringStore.Store.Entry
import Mathlib.Tactic.Lemma

/-!
# Deadlines in unbounded arithmetic

The clock has a last reading.  A lifetime that ends beyond it is kept as no deadline at all.  Seen
from the readings the clock does have, this makes no difference: an entry is expired exactly when
the nanoseconds of its lifetime, added to those of the time of writing without any bound, have been
reached.  `Expiry.Reached` is this sum, and `Entry.expired_written_iff` is the comparison.

The nanoseconds since reading zero stand for an instant, so a deadline is kept exactly when there is
a reading for it (`Instant.add?_eq_some_iff`).
-/

namespace ExpiringStore

namespace Instant

lemma le_rfl {t : Instant} : t ≤ t := le_iff_toNanos.2 (Int.le_refl _)

lemma le_trans {t u v : Instant} (h : t ≤ u) (h' : u ≤ v) : t ≤ v :=
  le_iff_toNanos.2 (Int.le_trans (le_iff_toNanos.1 h) (le_iff_toNanos.1 h'))

lemma toNanos_lt (t : Instant) : t.toNanos < 0x8000000000000000 * nanosPerSecond := by
  have hs := t.seconds_lt
  have hn := t.subsecond_lt
  simp only [toNanos, nanosPerSecond] at hn ⊢
  omega

/-- A sum is missing exactly when it lies beyond the last reading of the clock. -/
lemma add?_eq_none_iff (t : Instant) (d : Duration) :
    t.add? d = none ↔ 0x8000000000000000 * nanosPerSecond ≤ t.toNanos + d.nanos := by
  have hn := t.subsecond_lt
  simp only [nanosPerSecond] at hn
  by_cases hfits : t.seconds + d.seconds +
      ((t.subsecond + d.subsecond) / nanosPerSecond : Nat) < 0x8000000000000000
  · rw [add?, dif_pos hfits]
    simp only [reduceCtorEq, false_iff, toNanos]
    simp only [Duration.seconds, Duration.subsecond, nanosPerSecond] at hfits ⊢
    omega
  · rw [add?, dif_neg hfits]
    simp only [true_iff, toNanos]
    simp only [Duration.seconds, Duration.subsecond, nanosPerSecond] at hfits ⊢
    omega

lemma toNanos_injective : Function.Injective toNanos := by
  intro a b h
  have ha := a.subsecond_lt
  have hb := b.subsecond_lt
  simp only [toNanos, nanosPerSecond] at h ha hb
  have hseconds : a.seconds = b.seconds := by omega
  have hsubsecond : a.subsecond = b.subsecond := by omega
  cases a
  cases b
  cases hseconds
  cases hsubsecond
  rfl

/-- A sum is found exactly when there is a reading for it. -/
lemma add?_eq_some_iff {t u : Instant} {d : Duration} :
    t.add? d = some u ↔ u.toNanos = t.toNanos + d.nanos := by
  refine ⟨toNanos_of_add?, fun hu => ?_⟩
  cases h : t.add? d with
  | none =>
    have hbeyond := (add?_eq_none_iff t d).1 h
    have hlast := u.toNanos_lt
    omega
  | some v => rw [toNanos_injective ((toNanos_of_add? h).trans hu.symm)]

/-- A sum is reached in nanoseconds when it is in seconds and nanoseconds.  The nanoseconds beyond
the seconds come to less than two seconds, so one carry is enough. -/
lemma add_nanos_le_iff (t : Instant) (d : Duration) (u : Instant) :
    let nanos := t.subsecond + d.subsecond
    let carry := if nanosPerSecond ≤ nanos then 1 else 0
    let seconds := t.seconds + d.seconds + carry
    t.toNanos + d.nanos ≤ u.toNanos ↔
      seconds < u.seconds ∨
        seconds = u.seconds ∧ (nanos : Int) - carry * nanosPerSecond ≤ u.subsecond := by
  intro nanos carry seconds
  have ht := t.subsecond_lt
  have hd := d.subsecond_lt
  have hu := u.subsecond_lt
  by_cases hcarry : nanosPerSecond ≤ nanos
  · simp only [seconds, carry, if_pos hcarry]
    simp only [nanos, toNanos, Duration.seconds, Duration.subsecond, nanosPerSecond]
      at ht hd hu hcarry ⊢
    omega
  · simp only [seconds, carry, if_neg hcarry]
    simp only [nanos, toNanos, Duration.seconds, Duration.subsecond, nanosPerSecond]
      at ht hd hu hcarry ⊢
    omega

/-- The clock does not go back. -/
lemma le_later (t : Instant) (d : Duration) : t ≤ t.later d := by
  rw [later]
  cases h : t.add? d with
  | none => exact le_rfl
  | some u =>
    rw [Option.getD_some, le_iff_toNanos, toNanos_of_add? h]
    omega

end Instant

/-- The lifetime of an entry written at `written` is over at `t`, counted in nanoseconds without
bound. -/
def Expiry.Reached (e : Expiry) (written t : Instant) : Prop :=
  match e with
  | .never => False
  | .after ttl => written.toNanos + ttl.nanos ≤ t.toNanos

instance (e : Expiry) (written t : Instant) : Decidable (e.Reached written t) :=
  match e with
  | .never => inferInstanceAs (Decidable False)
  | .after ttl => inferInstanceAs (Decidable (written.toNanos + ttl.nanos ≤ t.toNanos))

/-- A lifetime that is over stays over. -/
lemma Expiry.Reached.mono {e : Expiry} {written t u : Instant} (he : e.Reached written t)
    (h : t ≤ u) : e.Reached written u := by
  cases e with
  | never => exact he
  | after ttl => exact Int.le_trans he (Instant.le_iff_toNanos.1 h)

namespace Entry

variable {α : Type u}

@[simp] lemma value_written (written : Instant) (value : α) (e : Expiry) :
    (Entry.written written value e).value = value := rfl

/-- **Deadlines are exact.**  A deadline that the clock cannot represent gives the same answers as
the true one. -/
lemma expired_written_iff (written t : Instant) (value : α) (e : Expiry) :
    (Entry.written written value e).expired t = true ↔ e.Reached written t := by
  cases e with
  | never => simp [Entry.written, Expiry.deadline, expired, Expiry.Reached]
  | after ttl =>
    simp only [Entry.written, Expiry.deadline, expired, Expiry.Reached]
    cases h : written.add? ttl with
    | none =>
      -- no reading of the clock reaches a sum beyond its last one
      have hbeyond := (Instant.add?_eq_none_iff written ttl).1 h
      have hlast := t.toNanos_lt
      simp only [Bool.false_eq_true, false_iff]
      omega
    | some deadline =>
      rw [decide_eq_true_eq, Instant.le_iff_toNanos, Instant.toNanos_of_add? h]

/-- What has expired stays expired. -/
lemma expired_mono {e : Entry α} {t u : Instant} (h : t ≤ u) (he : e.expired t = true) :
    e.expired u = true := by
  unfold expired at he ⊢
  cases hd : e.deadline with
  | none => simp [hd] at he
  | some deadline =>
    simp only [hd, decide_eq_true_eq] at he ⊢
    exact Instant.le_trans he h

/-- **Deadlines are exact at the limits of the clock.**  Entries are written at one time with
lifetimes of any length.  The deadline of such an entry is the sum of the two in unbounded
arithmetic if the clock has a reading for it, and there is no deadline otherwise.

* Whichever it is, the entry is expired at a reading exactly if that has come to the sum; in
  particular it never is if there is no deadline, since no reading comes to the sum.
* The same holds in seconds and nanoseconds, when a full second of nanoseconds is carried.
* What is expired stays expired; an entry is not expired before another one with a shorter lifetime
  is; and without any lifetime an entry is expired from the time at which it was written. -/
theorem expires_exactly (written : Instant) (value : α) :
    let entry (ttl : Duration) := Entry.written written value (.after ttl)
    (∀ ttl deadline, (entry ttl).deadline = some deadline ↔
      deadline.toNanos = written.toNanos + ttl.nanos) ∧
    (∀ ttl, (entry ttl).deadline = none ↔
      ¬ ∃ deadline : Instant, deadline.toNanos = written.toNanos + ttl.nanos) ∧
    (∀ ttl t, (entry ttl).expired t = true ↔ written.toNanos + ttl.nanos ≤ t.toNanos) ∧
    (∀ ttl t, (entry ttl).deadline = none →
      (entry ttl).expired t = false ∧ t.toNanos < written.toNanos + ttl.nanos) ∧
    (∀ ttl t,
      let nanos := written.subsecond + ttl.subsecond
      let carry := if nanosPerSecond ≤ nanos then 1 else 0
      let seconds := written.seconds + ttl.seconds + carry
      (entry ttl).expired t = true ↔
        seconds < t.seconds ∨
          seconds = t.seconds ∧ (nanos : Int) - carry * nanosPerSecond ≤ t.subsecond) ∧
    (∀ ttl t u, t ≤ u → (entry ttl).expired t = true → (entry ttl).expired u = true) ∧
    (∀ short long t, short ≤ long → (entry long).expired t = true →
      (entry short).expired t = true) ∧
    ∀ t, (entry .zero).expired t = true ↔ written ≤ t := by
  intro entry
  have hexpired (ttl : Duration) (t : Instant) :
      (entry ttl).expired t = true ↔ written.toNanos + ttl.nanos ≤ t.toNanos :=
    expired_written_iff written t value (.after ttl)
  have hsome (ttl : Duration) (deadline : Instant) :
      (entry ttl).deadline = some deadline ↔ deadline.toNanos = written.toNanos + ttl.nanos :=
    Instant.add?_eq_some_iff
  have hnone (ttl : Duration) : (entry ttl).deadline = none ↔
      ¬ ∃ deadline : Instant, deadline.toNanos = written.toNanos + ttl.nanos := by
    rw [Option.eq_none_iff_forall_ne_some, not_exists]
    exact forall_congr' fun deadline => not_congr (hsome ttl deadline)
  refine ⟨hsome, hnone, hexpired, fun ttl t hdeadline => ?_, fun ttl t => ?_,
    fun ttl t u htu ht => ?_, fun short long t hle ht => ?_, fun t => ?_⟩
  · have hbeyond := (Instant.add?_eq_none_iff written ttl).1 hdeadline
    have hlast := t.toNanos_lt
    refine ⟨?_, by omega⟩
    rw [← Bool.not_eq_true, hexpired]
    omega
  · rw [hexpired]
    exact written.add_nanos_le_iff ttl t
  · exact expired_mono htu ht
  · rw [hexpired] at ht ⊢
    have hnanos := Duration.le_iff.1 hle
    omega
  · rw [hexpired, Instant.le_iff_toNanos]
    simp [Duration.zero]

/-- An entry written at the last second of the clock: one nanosecond is left of it, a lifetime of
that length has a deadline, and the longest lifetime of all has none. -/
theorem expires_exactly_at_last_second :
    let written : Instant := ⟨0x7FFFFFFFFFFFFFFF, 999999998, by decide, by decide, by decide⟩
    let last : Instant := ⟨0x7FFFFFFFFFFFFFFF, 999999999, by decide, by decide, by decide⟩
    let nano : Duration := ⟨1, by decide⟩
    let longest : Duration := ⟨UInt64.size * nanosPerSecond - 1, by decide⟩
    let entry (ttl : Duration) := Entry.written written () (.after ttl)
    (entry nano).deadline = some last ∧ (entry nano).expired written = false ∧
      (entry nano).expired last = true ∧
      (entry longest).deadline = none ∧ (entry longest).expired last = false := by
  intro written last nano longest entry
  obtain ⟨hsome, -, hexpired, hnever, -, -, -, -⟩ := expires_exactly written ()
  have hlongest : (entry longest).deadline = none := by decide
  refine ⟨(hsome nano last).2 (by decide), ?_, (hexpired nano last).2 (by decide), hlongest,
    (hnever longest last hlongest).1⟩
  rw [← Bool.not_eq_true, hexpired]
  decide

end Entry

end ExpiringStore
