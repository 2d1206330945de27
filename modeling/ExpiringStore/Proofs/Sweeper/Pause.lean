import ExpiringStore.Sweeper.Timing
import Mathlib.Algebra.Order.Group.Nat
import Mathlib.Tactic.Lemma

/-!
# How the pause adapts

The pause between passes starts at the interval of its timing and is moved by each pass.  Two things
are shown of it.  It stays between the shortest and the longest pause, so that its double can always
be represented, and it moves the way the pass asks for (`pauses_paced`).  And it adapts fully:
enough passes of one kind bring it to the bound on their side, exactly, whatever came before
(`pause_adapts`).

The second needs to know what many passes do together.  Doubling below a ceiling `k` times is
multiplying by `2 ^ k` below the ceiling (`pauseAfter_idle`), and halving above a floor `k` times is
dividing by `2 ^ k` above the floor, although each halving drops half a nanosecond
(`pauseAfter_busy`).
-/

namespace ExpiringStore.Timing

variable {t : Timing}

/-- The shortest pause is not above the interval nor the interval above the longest, and twice the
longest is a duration. -/
structure Ordered (t : Timing) : Prop where
  shortest_le : t.shortest ≤ t.interval
  le_longest : t.interval ≤ t.longest
  double_lt : 2 * t.longest.nanos < UInt64.size * nanosPerSecond

/-- A pause between the shortest and the longest. -/
structure Within (t : Timing) (pause : Duration) : Prop where
  shortest_le : t.shortest ≤ pause
  le_longest : pause ≤ t.longest

lemma Ordered.within (h : t.Ordered) : t.Within t.interval := ⟨h.shortest_le, h.le_longest⟩

/-! ## One pass -/

lemma next?_empty (t : Timing) (pause : Duration) : t.next? pause 0 0 = some pause := rfl

lemma ne_zero_of_busy {removed entries : UInt64} (h : busy removed entries = true) :
    removed ≠ 0 := by
  rintro rfl
  have hzero : 4 * roundSignificant 53 (0 : UInt64).toNat = 0 := by decide
  rw [busy, decide_eq_true_eq, hzero] at h
  exact Nat.not_lt_zero _ h

/-- A pass that removes none of some entries. -/
lemma next?_idle {pause : Duration} (hpause : pause ≤ t.longest)
    (hdouble : 2 * t.longest.nanos < UInt64.size * nanosPerSecond) {entries : UInt64}
    (hentries : entries ≠ 0) :
    ∃ next, t.next? pause 0 entries = some next ∧
      next.nanos = min (2 * pause.nanos) t.longest.nanos := by
  have hle := Duration.le_iff.1 hpause
  have hlt : 2 * pause.nanos < UInt64.size * nanosPerSecond := by omega
  refine ⟨min ⟨2 * pause.nanos, hlt⟩ t.longest, ?_, Duration.nanos_min _ _⟩
  rw [next?, if_pos rfl, if_neg hentries, Duration.double?, Duration.ofNanos?, dif_pos hlt]
  rfl

lemma shortest_le_max (t : Timing) (pause : Duration) : t.shortest ≤ max pause t.shortest := by
  rw [Duration.le_iff, Duration.nanos_max]
  exact Nat.le_max_right _ _

/-- A pass that removes more than a quarter. -/
lemma next?_busy (t : Timing) (pause : Duration) {removed entries : UInt64}
    (h : busy removed entries = true) :
    t.next? pause removed entries = some (max pause.half t.shortest) := by
  rw [next?, if_neg (ne_zero_of_busy h), if_pos h]

/-- How a pass that removed so many of the entries moves the pause. -/
structure Moves (t : Timing) (pause : Duration) (removed entries : UInt64) (next : Duration) :
    Prop where
  eq_next : t.next? pause removed entries = some next
  /-- A pass that removes something never lengthens the pause. -/
  le_of_removed : removed ≠ 0 → next ≤ pause
  /-- A pass that removes nothing never shortens it. -/
  le_of_idle : removed = 0 → pause ≤ next
  /-- A pass over an empty store leaves it as it is. -/
  eq_of_empty : removed = 0 → entries = 0 → next = pause

/-- **One pass keeps the pause within its bounds.** -/
lemma Within.moves {pause : Duration} (hpause : t.Within pause)
    (hdouble : 2 * t.longest.nanos < UInt64.size * nanosPerSecond) (removed entries : UInt64) :
    ∃ next, t.Within next ∧ t.Moves pause removed entries next := by
  have hlow := Duration.le_iff.1 hpause.shortest_le
  have hhigh := Duration.le_iff.1 hpause.le_longest
  have hrefl : pause ≤ pause := Nat.le_refl _
  by_cases hremoved : removed = 0
  · subst hremoved
    by_cases hentries : entries = 0
    · subst hentries
      exact ⟨pause, hpause, t.next?_empty pause, fun _ => hrefl, fun _ => hrefl, fun _ _ => rfl⟩
    · obtain ⟨next, heq, hnanos⟩ := next?_idle hpause.le_longest hdouble hentries
      have hlonger : pause ≤ next := by
        rw [Duration.le_iff, hnanos]
        omega
      have hbelow : next ≤ t.longest := by
        rw [Duration.le_iff, hnanos]
        exact Nat.min_le_right _ _
      exact ⟨next, ⟨Nat.le_trans hlow hlonger, hbelow⟩, heq, fun h => absurd rfl h,
        fun _ => hlonger, fun _ h => absurd h hentries⟩
  · by_cases hbusy : busy removed entries = true
    · have hnanos := Duration.nanos_max pause.half t.shortest
      rw [Duration.nanos_half] at hnanos
      have hshorter : max pause.half t.shortest ≤ pause := by
        rw [Duration.le_iff, hnanos]
        omega
      exact ⟨_, ⟨t.shortest_le_max pause.half, Nat.le_trans hshorter hhigh⟩,
        t.next?_busy pause hbusy, fun _ => hshorter, fun h => absurd h hremoved,
        fun h => absurd h hremoved⟩
    · refine ⟨pause, hpause, ?_, fun _ => hrefl, fun _ => hrefl, fun _ _ => rfl⟩
      rw [next?, if_neg hremoved, if_neg hbusy]

/-! ## Many passes -/

/-- The pauses after each of some passes: all within the bounds, and each moved from the one before
it as its pass asks. -/
inductive Paced (t : Timing) : Duration → List (UInt64 × UInt64) → List Duration → Prop
  | nil {pause : Duration} : Paced t pause [] []
  | cons {pause next : Duration} {removed entries : UInt64} {passes : List (UInt64 × UInt64)}
      {pauses : List Duration} (hwithin : t.Within next)
      (hmoves : t.Moves pause removed entries next) (hrest : Paced t next passes pauses) :
      Paced t pause ((removed, entries) :: passes) (next :: pauses)

lemma Within.exists_paced {pause : Duration} (hpause : t.Within pause)
    (hdouble : 2 * t.longest.nanos < UInt64.size * nanosPerSecond)
    (passes : List (UInt64 × UInt64)) :
    ∃ pauses, t.pauses pause passes = some pauses ∧ t.Paced pause passes pauses := by
  induction passes generalizing pause with
  | nil => exact ⟨[], rfl, .nil⟩
  | cons pass passes ih =>
    obtain ⟨removed, entries⟩ := pass
    obtain ⟨next, hnext, hmoves⟩ := hpause.moves hdouble removed entries
    obtain ⟨rest, heq, hrest⟩ := ih hnext
    refine ⟨next :: rest, ?_, .cons hnext hmoves hrest⟩
    rw [pauses, hmoves.eq_next, Option.bind_eq_bind, Option.bind_some, heq]
    rfl

/-- **The pause stays within its bounds.**  Whatever the passes find, from the first pause on all
pauses can be represented and lie between the shortest and the longest, and none moves against what
its pass found. -/
theorem pauses_paced (h : t.Ordered) (passes : List (UInt64 × UInt64)) :
    ∃ pauses, t.pauses t.interval passes = some pauses ∧ t.Paced t.interval passes pauses :=
  h.within.exists_paced h.double_lt passes

/-- With the longest pause a nanosecond short of half of what can be represented: doubling is cut
off there, halving drops half a nanosecond, and a pass that removed something of nothing is a busy
one. -/
theorem pauses_paced_near_limit :
    let longest : Duration := ⟨2 ^ 63 * nanosPerSecond - 1, by decide⟩
    let t : Timing := ⟨.ofSeconds (.ofNat (2 ^ 62)), .ofSeconds 3, longest⟩
    let passes : List (UInt64 × UInt64) :=
      [(0, 1), (0, 1), (1, 0), (1, 4), (0, 0), (.ofNat (2 ^ 64 - 1), .ofNat (2 ^ 64 - 1))]
    let half : Duration := ⟨2 ^ 62 * nanosPerSecond - 1, by decide⟩
    let quarter : Duration := ⟨2 ^ 61 * nanosPerSecond - 1, by decide⟩
    let pauses := [longest, longest, half, half, half, quarter]
    t.Ordered ∧ t.pauses t.interval passes = some pauses ∧ t.Paced t.interval passes pauses := by
  intro longest t passes half quarter pauses
  have ht : t.Ordered := ⟨by decide +kernel, by decide +kernel, by decide +kernel⟩
  have hpauses : t.pauses t.interval passes = some pauses := by decide +kernel
  obtain ⟨found, heq, hpaced⟩ := pauses_paced ht passes
  obtain rfl : pauses = found := Option.some_inj.1 (hpauses.symm.trans heq)
  exact ⟨ht, heq, hpaced⟩

/-! ## Passes of one kind -/

/-- The pause after some passes. -/
def pauseAfter (t : Timing) (pause : Duration) (passes : List (UInt64 × UInt64)) :
    Option Duration :=
  (t.pauses pause passes).map fun pauses => pauses.getLastD pause

@[simp] lemma pauseAfter_nil (t : Timing) (pause : Duration) : t.pauseAfter pause [] = some pause :=
  rfl

lemma pauseAfter_cons (t : Timing) (pause : Duration) (removed entries : UInt64)
    (passes : List (UInt64 × UInt64)) :
    t.pauseAfter pause ((removed, entries) :: passes) =
      (t.next? pause removed entries).bind fun next => t.pauseAfter next passes := by
  rw [pauseAfter, pauses]
  cases t.next? pause removed entries with
  | none => rfl
  | some next =>
    simp only [Option.bind_eq_bind, Option.bind_some, pauseAfter]
    cases t.pauses next passes with
    | none => rfl
    | some rest => cases rest <;> rfl

lemma pauseAfter_append (t : Timing) (pause : Duration) (a b : List (UInt64 × UInt64)) :
    t.pauseAfter pause (a ++ b) = (t.pauseAfter pause a).bind fun next => t.pauseAfter next b := by
  induction a generalizing pause with
  | nil => rfl
  | cons pass a ih =>
    obtain ⟨removed, entries⟩ := pass
    simp only [List.cons_append, pauseAfter_cons, ih, Option.bind_assoc]

lemma Within.exists_pauseAfter {pause : Duration} (hpause : t.Within pause)
    (hdouble : 2 * t.longest.nanos < UInt64.size * nanosPerSecond)
    (passes : List (UInt64 × UInt64)) :
    ∃ next, t.pauseAfter pause passes = some next ∧ t.Within next := by
  induction passes generalizing pause with
  | nil => exact ⟨pause, rfl, hpause⟩
  | cons pass passes ih =>
    obtain ⟨removed, entries⟩ := pass
    obtain ⟨next, hnext, hmoves⟩ := hpause.moves hdouble removed entries
    rw [pauseAfter_cons, hmoves.eq_next, Option.bind_some]
    exact ih hnext

/-- **Doubling `k` times** is multiplying by `2 ^ k`, up to the longest pause. -/
lemma pauseAfter_idle {pause : Duration} (hpause : pause ≤ t.longest)
    (hdouble : 2 * t.longest.nanos < UInt64.size * nanosPerSecond)
    {passes : List (UInt64 × UInt64)} (hidle : ∀ pass ∈ passes, pass.1 = 0 ∧ pass.2 ≠ 0) :
    ∃ next, t.pauseAfter pause passes = some next ∧
      next.nanos = min (2 ^ passes.length * pause.nanos) t.longest.nanos := by
  induction passes generalizing pause with
  | nil =>
    refine ⟨pause, rfl, ?_⟩
    rw [List.length_nil, pow_zero, one_mul, Nat.min_eq_left (Duration.le_iff.1 hpause)]
  | cons pass passes ih =>
    obtain ⟨removed, entries⟩ := pass
    obtain ⟨⟨rfl, hentries⟩, hrest⟩ := List.forall_mem_cons.1 hidle
    obtain ⟨next, heq, hnanos⟩ := next?_idle hpause hdouble hentries
    have hnext : next ≤ t.longest := by
      rw [Duration.le_iff, hnanos]
      exact Nat.min_le_right _ _
    obtain ⟨last, hafter, hlast⟩ := ih hnext hrest
    refine ⟨last, by rw [pauseAfter_cons, heq, Option.bind_some, hafter], ?_⟩
    -- what was cut off at the ceiling would be cut off later anyway
    have hceiling : t.longest.nanos ≤ 2 ^ passes.length * t.longest.nanos :=
      Nat.le_mul_of_pos_left _ (Nat.two_pow_pos _)
    calc last.nanos
        = min (2 ^ passes.length * min (2 * pause.nanos) t.longest.nanos) t.longest.nanos := by
          rw [hlast, hnanos]
      _ = min (2 ^ passes.length * (2 * pause.nanos)) t.longest.nanos := by
          rw [← Nat.mul_min_mul_left, Nat.min_assoc, Nat.min_eq_right hceiling]
      _ = min (2 ^ (passes.length + 1) * pause.nanos) t.longest.nanos := by
          rw [pow_succ, Nat.mul_assoc]

/-- **Halving `k` times** is dividing by `2 ^ k`, down to the shortest pause. -/
lemma pauseAfter_busy {pause : Duration} (hpause : t.shortest ≤ pause)
    {passes : List (UInt64 × UInt64)} (hbusy : ∀ pass ∈ passes, busy pass.1 pass.2 = true) :
    ∃ next, t.pauseAfter pause passes = some next ∧
      next.nanos = max (pause.nanos / 2 ^ passes.length) t.shortest.nanos := by
  induction passes generalizing pause with
  | nil =>
    refine ⟨pause, rfl, ?_⟩
    rw [List.length_nil, pow_zero, Nat.div_one, Nat.max_eq_left (Duration.le_iff.1 hpause)]
  | cons pass passes ih =>
    obtain ⟨removed, entries⟩ := pass
    obtain ⟨hfirst, hrest⟩ := List.forall_mem_cons.1 hbusy
    have hnanos := Duration.nanos_max pause.half t.shortest
    obtain ⟨last, hafter, hlast⟩ := ih (t.shortest_le_max pause.half) hrest
    refine ⟨last, by rw [pauseAfter_cons, t.next?_busy pause hfirst, Option.bind_some, hafter], ?_⟩
    -- what was lifted to the floor would be lifted later anyway
    have hfloor : t.shortest.nanos / 2 ^ passes.length ≤ t.shortest.nanos := Nat.div_le_self _ _
    have hmono : Monotone fun nanos : Nat => nanos / 2 ^ passes.length :=
      fun _ _ h => Nat.div_le_div_right h
    calc last.nanos
        = max (max (pause.nanos / 2) t.shortest.nanos / 2 ^ passes.length) t.shortest.nanos := by
          rw [hlast, hnanos, Duration.nanos_half]
      _ = max (pause.nanos / 2 / 2 ^ passes.length) t.shortest.nanos := by
          rw [hmono.map_max, Nat.max_assoc, Nat.max_eq_right hfloor]
      _ = max (pause.nanos / 2 ^ (passes.length + 1)) t.shortest.nanos := by
          rw [Nat.div_div_eq_div_mul, pow_succ']

/-- **The pause adapts fully.**  If `2 ^ k` times the shortest pause is at least the longest, and
there is such a `k`, then `k` passes that remove none of some entries lead to exactly the longest
pause, and `k` passes that remove more than a quarter to exactly the shortest, whatever passes there
were before. -/
theorem pause_adapts (h : t.Ordered) (hpos : 0 < t.shortest.nanos) :
    (∃ k, t.longest.nanos ≤ 2 ^ k * t.shortest.nanos) ∧
    ∀ k, t.longest.nanos ≤ 2 ^ k * t.shortest.nanos → ∀ earlier further : List (UInt64 × UInt64),
      further.length = k →
      ((∀ pass ∈ further, pass.1 = 0 ∧ pass.2 ≠ 0) →
        t.pauseAfter t.interval (earlier ++ further) = some t.longest) ∧
      ((∀ pass ∈ further, busy pass.1 pass.2 = true) →
        t.pauseAfter t.interval (earlier ++ further) = some t.shortest) := by
  refine ⟨⟨t.longest.nanos, ?_⟩, ?_⟩
  · exact (Nat.lt_two_pow_self).le.trans (Nat.le_mul_of_pos_right _ hpos)
  · rintro k hk earlier further rfl
    obtain ⟨pause, hearlier, hpause⟩ := h.within.exists_pauseAfter h.double_lt earlier
    have hlow := Duration.le_iff.1 hpause.shortest_le
    have hhigh := Duration.le_iff.1 hpause.le_longest
    simp only [pauseAfter_append, hearlier, Option.bind_some]
    refine ⟨fun hidle => ?_, fun hbusy => ?_⟩
    · obtain ⟨next, heq, hnanos⟩ := pauseAfter_idle hpause.le_longest h.double_lt hidle
      have hreach : t.longest.nanos ≤ 2 ^ further.length * pause.nanos :=
        hk.trans (Nat.mul_le_mul_left _ hlow)
      rw [heq, Option.some_inj]
      exact Duration.ext (hnanos.trans (Nat.min_eq_right hreach))
    · obtain ⟨next, heq, hnanos⟩ := pauseAfter_busy hpause.shortest_le hbusy
      have hreach : pause.nanos / 2 ^ further.length ≤ t.shortest.nanos :=
        Nat.div_le_of_le_mul (hhigh.trans hk)
      rw [heq, Option.some_inj]
      exact Duration.ext (hnanos.trans (Nat.max_eq_right hreach))

/-- Two passes of a kind are enough between three and ten nanoseconds, whatever came before. -/
theorem pause_adapts_from_four_nanos :
    let t : Timing := ⟨⟨9, by decide⟩, ⟨3, by decide⟩, ⟨10, by decide⟩⟩
    let earlier : List (UInt64 × UInt64) := [(5, 10), (1, 10)]
    (t.Ordered ∧ 0 < t.shortest.nanos ∧ t.longest.nanos ≤ 2 ^ 2 * t.shortest.nanos) ∧
    t.pauseAfter t.interval earlier = some ⟨4, by decide⟩ ∧
    t.pauseAfter t.interval (earlier ++ [(0, 5), (0, 1)]) = some t.longest ∧
    t.pauseAfter t.interval (earlier ++ [(4, 10), (2, 6)]) = some t.shortest := by
  intro t earlier
  have ht : t.Ordered := ⟨by decide, by decide, by decide⟩
  have hpos : 0 < t.shortest.nanos := by decide
  have hreach : t.longest.nanos ≤ 2 ^ 2 * t.shortest.nanos := by decide
  obtain ⟨-, hadapts⟩ := pause_adapts ht hpos
  have hbusy : [(4, 10), (2, 6)].all (fun pass => busy pass.1 pass.2) = true := by decide +kernel
  refine ⟨⟨ht, hpos, hreach⟩, by decide +kernel, ?_, ?_⟩
  · exact (hadapts 2 hreach earlier [(0, 5), (0, 1)] rfl).1 (by simp)
  · exact (hadapts 2 hreach earlier [(4, 10), (2, 6)] rfl).2 (List.all_eq_true.1 hbusy)

end ExpiringStore.Timing
