import ExpiringStore.Proofs.Store.Sweep
import ExpiringStore.Proofs.Sweeper.Pause
import ExpiringStore.Sweeper.Basic

/-!
# A sweeper at work

While a sweeper is at work its store is used, its clock ticks, and at some point it may be told to
stop.  `course` is what such events make of the two, and `passes` are the passes among them.

A tick sweeps the store or leaves it alone.  So the store is always one that operations lead to
(`exists_run_course`), and sweeps while its clock stands still do what one of them does
(`snd_course_ticks`).

The sweeper is tied to the passes it has made by `Timely`: its pause is what they have made of the
first one, the last of them was made at `last`, and no pass is due.  One event keeps this
(`Timely.happen`), because a new pause is never zero, and so a whole course does (`timely_course`).
A sweeper that has ended only counts ticks (`course_of_not_running`).
-/

namespace ExpiringStore

/-- The milliseconds of a duration, the last one begun counted as a whole one. -/
def Duration.ceilMillis (d : Duration) : Nat := (d.nanos + (nanosPerMilli - 1)) / nanosPerMilli

lemma Duration.lt_ceilMillis_iff {d : Duration} {n : Nat} :
    n < d.ceilMillis ↔ n * nanosPerMilli < d.nanos := by
  simp only [ceilMillis, nanosPerMilli]
  omega

lemma Duration.ceilMillis_mono {d e : Duration} (h : d ≤ e) : d.ceilMillis ≤ e.ceilMillis :=
  Nat.div_le_div_right (Nat.add_le_add_right (le_iff.1 h) _)

namespace Sweeper

variable {α : Type u}

/-! ## Courses of events -/

/-- Something that happens while a sweeper is at work on a store. -/
inductive Event (α : Type u) where
  /-- The store is used, when its clock reads `now`. -/
  | use (now : Instant) (operation : Store.Step α)
  /-- The sweeper's clock goes on by a millisecond, when the store's clock reads `now`. -/
  | tick (now : Instant)
  /-- The sweeper is told to stop. -/
  | stop
  /-- The sweeper is let go of, which stops it as well. -/
  | drop

namespace Event

/-- The sweeper's clock goes on. -/
def isTick : Event α → Bool
  | .tick _ => true
  | _ => false

/-- The sweeper is stopped, in one way or the other. -/
def isEnd : Event α → Bool
  | .stop => true
  | .drop => true
  | _ => false

/-- The operation of the store, if it is one. -/
def operation? : Event α → Option (Instant × Store.Step α)
  | .use now operation => some (now, operation)
  | _ => none

end Event

/-- What an event makes of a sweeper and its store. -/
def happen (p : Sweeper × Store α) : Event α → Sweeper × Store α
  | .use now operation => (p.1, (p.2.step now operation).2)
  | .tick now => p.1.tick p.2 now
  | .stop => (p.1.stop, p.2)
  | .drop => (p.1.stop, p.2)

/-- What some events make of them, one after another. -/
def course (p : Sweeper × Store α) (events : List (Event α)) : Sweeper × Store α :=
  events.foldl happen p

/-- A pass of a sweeper. -/
structure Pass where
  /-- The millisecond at which it was made. -/
  clock : Nat
  /-- How many entries it removed. -/
  removed : UInt64
  /-- How many there were. -/
  entries : UInt64
deriving DecidableEq

/-- What the pause is moved by. -/
def Pass.found (pass : Pass) : UInt64 × UInt64 := (pass.removed, pass.entries)

/-- The pass that an event brings about, if it does. -/
def pass? (p : Sweeper × Store α) : Event α → Option Pass
  | .tick now =>
    if { p.1 with clock := p.1.clock + 1 }.due then
      some ⟨p.1.clock + 1, (p.2.removeExpired now).1, p.2.length⟩
    else none
  | _ => none

/-- The passes in a course of events. -/
def passes (p : Sweeper × Store α) : List (Event α) → List Pass
  | [] => []
  | event :: events => (pass? p event).toList ++ passes (happen p event) events

lemma course_append (p : Sweeper × Store α) (a b : List (Event α)) :
    course p (a ++ b) = course (course p a) b := List.foldl_append

lemma course_concat (p : Sweeper × Store α) (events : List (Event α)) (event : Event α) :
    course p (events ++ [event]) = happen (course p events) event := course_append p events [event]

lemma passes_append (p : Sweeper × Store α) (a b : List (Event α)) :
    passes p (a ++ b) = passes p a ++ passes (course p a) b := by
  induction a generalizing p with
  | nil => rfl
  | cons event a ih =>
    rw [List.cons_append, passes, ih, passes, List.append_assoc]
    rfl

lemma passes_concat (p : Sweeper × Store α) (events : List (Event α)) (event : Event α) :
    passes p (events ++ [event]) = passes p events ++ (pass? (course p events) event).toList := by
  rw [passes_append, passes, passes, List.append_nil]

/-- Milliseconds during which nothing else happens. -/
lemma advance_eq_course (p : Sweeper × Store α) (now : Instant) (n : Nat) :
    p.1.advance p.2 now n = course p (List.replicate n (.tick now)) := by
  induction n generalizing p with
  | zero => rfl
  | succ n ih => exact ih (p.1.tick p.2 now)

/-! ## What becomes of the store -/

lemma snd_pass (w : Sweeper) (s : Store α) (now : Instant) :
    (w.pass s now).2 = (s.removeExpired now).2 := by
  simp only [pass]
  cases w.timing.next? w.pause (s.removeExpired now).1 s.length <;> rfl

/-- A tick that brings about a pass. -/
lemma tick_of_due {w : Sweeper} (h : { w with clock := w.clock + 1 }.due = true) (s : Store α)
    (now : Instant) : w.tick s now = { w with clock := w.clock + 1 }.pass s now := by
  rw [tick, if_pos h]

/-- A tick that does not. -/
lemma tick_of_not_due {w : Sweeper} (h : ¬{ w with clock := w.clock + 1 }.due = true) (s : Store α)
    (now : Instant) : w.tick s now = ({ w with clock := w.clock + 1 }, s) := by
  rw [tick, if_neg h]

/-- A tick sweeps the store or leaves it alone. -/
lemma snd_tick (p : Sweeper × Store α) (now : Instant) :
    (happen p (.tick now)).2 =
      if pass? p (.tick now) = none then p.2 else (p.2.removeExpired now).2 := by
  by_cases hdue : { p.1 with clock := p.1.clock + 1 }.due = true
  · rw [happen, tick_of_due hdue, snd_pass, pass?, if_pos hdue, if_neg (Option.some_ne_none _)]
  · rw [happen, tick_of_not_due hdue, pass?, if_neg hdue, if_pos rfl]

/-- **The store is one that operations lead to.** -/
lemma exists_run_course (p : Sweeper × Store α) (events : List (Event α)) :
    ∃ steps, (course p events).2 = (p.2.run steps).2 := by
  induction events using List.reverseRecOn with
  | nil => exact ⟨[], rfl⟩
  | append_singleton events event ih =>
    obtain ⟨steps, hsteps⟩ := ih
    rw [course_concat]
    have hnone : ∃ more, (course p events).2 = (p.2.run more).2 := ⟨steps, hsteps⟩
    have hone (now : Instant) (operation : Store.Step α) :
        ∃ more, ((course p events).2.step now operation).2 = (p.2.run more).2 := by
      refine ⟨steps ++ [(now, operation)], ?_⟩
      rw [Store.run_append, hsteps]
      rfl
    cases event with
    | use now operation => exact hone now operation
    | tick now =>
      rw [snd_tick]
      split_ifs
      · exact hnone
      · exact hone now .removeExpired
    | stop => exact hnone
    | drop => exact hnone

/-- **Sweeps while the store's clock stands still** do what one of them does. -/
lemma snd_course_ticks (p : Sweeper × Store α) (now : Instant) (n : Nat) :
    (course p (List.replicate n (.tick now))).2 =
      if passes p (List.replicate n (.tick now)) = [] then p.2 else (p.2.removeExpired now).2 := by
  induction n with
  | zero => rfl
  | succ n ih =>
    rw [List.replicate_succ', course_concat, passes_concat, snd_tick, ih]
    simp only [List.append_eq_nil_iff, Option.toList_eq_nil_iff]
    by_cases hfirst : passes p (List.replicate n (.tick now)) = []
    · simp only [hfirst, true_and, if_true]
    · -- a sweep of a swept store finds nothing
      have hagain := p.2.removeExpired_removeExpired now
      simp only [hfirst, false_and, if_false, hagain, ite_self]

/-! ## The passes are in time -/

/-- Where a sweeper stands that was started `ticks` milliseconds ago and has `made` these passes. -/
structure Timely (t : Timing) (ticks : Nat) (made : List Pass) (w : Sweeper) : Prop where
  timing_eq : w.timing = t
  clock_eq : w.clock = ticks
  last_eq : w.last = (made.map Pass.clock).getLastD 0
  last_le : w.last ≤ w.clock
  pause_eq : t.pauseAfter t.interval (made.map Pass.found) = some w.pause
  due_eq : w.due = false

variable {t : Timing}

lemma due_eq_false_iff {w : Sweeper} :
    w.due = false ↔
      (w.running = true → w.clock * nanosPerMilli < w.last * nanosPerMilli + w.pause.nanos) := by
  rw [due, Bool.and_eq_false_imp, decide_eq_false_iff_not, Nat.not_le]

namespace Timely

variable {ticks : Nat} {made : List Pass}

lemma start (hpos : 0 < t.interval.nanos) : Timely t 0 [] (.start t) := by
  refine ⟨rfl, rfl, rfl, Nat.le_refl _, rfl, due_eq_false_iff.2 fun _ => ?_⟩
  simpa [Sweeper.start] using hpos

lemma within {w : Sweeper} (hw : Timely t ticks made w) (h : t.Ordered) : t.Within w.pause := by
  obtain ⟨pause, heq, hpause⟩ := h.within.exists_pauseAfter h.double_lt (made.map Pass.found)
  obtain rfl : pause = w.pause := Option.some_inj.1 (heq.symm.trans hw.pause_eq)
  exact hpause

/-- Less than a pause has gone by since the last pass. -/
lemma clock_lt {w : Sweeper} (hw : Timely t ticks made w) (hrunning : w.running = true) :
    w.clock < w.last + w.pause.ceilMillis := by
  have hdue := due_eq_false_iff.1 hw.due_eq hrunning
  have hlast := hw.last_le
  have hsince : w.clock - w.last < w.pause.ceilMillis := by
    rw [Duration.lt_ceilMillis_iff, Nat.sub_mul]
    exact Nat.sub_lt_left_of_lt_add (Nat.mul_le_mul_right _ hlast) hdue
  omega

/-- A pass that is due. -/
private lemma pass {w : Sweeper} (hw : Timely t ticks made w) (h : t.Ordered)
    (hpos : 0 < t.shortest.nanos) (s : Store α) (now : Instant) :
    Timely t (ticks + 1)
      (made ++ [⟨w.clock + 1, (s.removeExpired now).1, s.length⟩])
      ({ w with clock := w.clock + 1 }.pass s now).1 ∧
    ({ w with clock := w.clock + 1 }.pass s now).1.running = w.running := by
  obtain ⟨next, hnext, hmoves⟩ :=
    (hw.within h).moves h.double_lt (s.removeExpired now).1 s.length
  have hpass : { w with clock := w.clock + 1 }.pass s now =
      ({ w with clock := w.clock + 1, pause := next, last := w.clock + 1 },
        (s.removeExpired now).2) := by
    simp only [Sweeper.pass, hw.timing_eq, hmoves.eq_next]
  rw [hpass]
  refine ⟨⟨hw.timing_eq, congrArg (· + 1) hw.clock_eq, ?_, Nat.le_refl _, ?_, ?_⟩, rfl⟩
  · simp
  · rw [List.map_append, Timing.pauseAfter_append, hw.pause_eq, Option.bind_some,
      List.map_singleton, Pass.found, Timing.pauseAfter_cons, hmoves.eq_next, Option.bind_some,
      Timing.pauseAfter_nil]
  · -- the next pass is at least the shortest pause away
    have hlow := Duration.le_iff.1 hnext.shortest_le
    rw [due_eq_false_iff]
    intro _
    show (w.clock + 1) * nanosPerMilli < (w.clock + 1) * nanosPerMilli + next.nanos
    omega

/-- **One event.** -/
lemma happen {p : Sweeper × Store α} (hp : Timely t ticks made p.1) (h : t.Ordered)
    (hpos : 0 < t.shortest.nanos) (event : Event α) :
    Timely t (ticks + event.isTick.toNat) (made ++ (pass? p event).toList) (happen p event).1 ∧
    (Sweeper.happen p event).1.running = (p.1.running && !event.isEnd) := by
  have hstop : Timely t ticks (made ++ []) p.1.stop := by
    rw [List.append_nil]
    exact ⟨hp.timing_eq, hp.clock_eq, hp.last_eq, hp.last_le, hp.pause_eq, rfl⟩
  cases event with
  | use now operation =>
    refine ⟨?_, (Bool.and_true _).symm⟩
    show Timely t ticks (made ++ []) p.1
    rwa [List.append_nil]
  | tick now =>
    show Timely t (ticks + 1) _ _ ∧ _ = (p.1.running && true)
    rw [Bool.and_true]
    by_cases hdue : { p.1 with clock := p.1.clock + 1 }.due = true
    · rw [Sweeper.happen, tick_of_due hdue, pass?, if_pos hdue]
      exact hp.pass h hpos p.2 now
    · rw [Sweeper.happen, tick_of_not_due hdue, pass?, if_neg hdue]
      refine ⟨?_, rfl⟩
      rw [Option.toList_none, List.append_nil]
      exact ⟨hp.timing_eq, congrArg (· + 1) hp.clock_eq, hp.last_eq,
        Nat.le_succ_of_le hp.last_le, hp.pause_eq, Bool.eq_false_iff.2 hdue⟩
  | stop => exact ⟨hstop, (Bool.and_false _).symm⟩
  | drop => exact ⟨hstop, (Bool.and_false _).symm⟩

end Timely

/-- **A course of events** from the start of a sweeper. -/
lemma timely_course (h : t.Ordered) (hpos : 0 < t.shortest.nanos) (s : Store α)
    (events : List (Event α)) :
    Timely t (events.countP Event.isTick) (passes (.start t, s) events)
      (course (.start t, s) events).1 ∧
    (course (.start t, s) events).1.running = events.all fun event => !event.isEnd := by
  induction events using List.reverseRecOn with
  | nil => exact ⟨.start (Nat.lt_of_lt_of_le hpos (Duration.le_iff.1 h.shortest_le)), rfl⟩
  | append_singleton events event ih =>
    obtain ⟨htimely, hrunning⟩ := ih
    obtain ⟨hnext, hends⟩ := htimely.happen h hpos event
    have htick : [event].countP Event.isTick = event.isTick.toNat := by
      cases event <;> rfl
    rw [course_concat, passes_concat, List.countP_append, htick]
    refine ⟨hnext, ?_⟩
    rw [hends, hrunning, List.all_append, List.all_cons, List.all_nil, Bool.and_true]

/-! ## After the end -/

lemma happen_of_isEnd (p : Sweeper × Store α) {event : Event α} (h : event.isEnd = true) :
    happen p event = (p.1.stop, p.2) := by
  cases event with
  | stop => rfl
  | drop => rfl
  | use now operation => cases h
  | tick now => cases h

/-- A sweeper that has ended leaves the store to its users. -/
lemma course_of_not_running {w : Sweeper} (h : w.running = false) (s : Store α)
    (events : List (Event α)) :
    course (w, s) events = ({ w with clock := w.clock + events.countP Event.isTick },
      (s.run (events.filterMap Event.operation?)).2) := by
  induction events generalizing w s with
  | nil => rfl
  | cons event events ih =>
    have hcons : course (w, s) (event :: events) = course (happen (w, s) event) events := rfl
    have hstop : w.stop = w := by rw [stop, ← h]
    rw [hcons]
    cases event with
    | use now operation => exact ih h _
    | tick now =>
      have hdue : ¬{ w with clock := w.clock + 1 }.due = true := by
        simp only [due, h, Bool.false_and, Bool.false_eq_true, not_false_eq_true]
      have hnext : happen (w, s) (.tick now) = ({ w with clock := w.clock + 1 }, s) :=
        tick_of_not_due hdue s now
      have hstill : { w with clock := w.clock + 1 }.running = false := h
      rw [hnext, List.countP_cons_of_pos rfl, ← Nat.add_assoc, Nat.add_right_comm]
      exact ih hstill s
    | stop =>
      rw [happen, hstop, ih h]
      rfl
    | drop =>
      rw [happen, hstop, ih h]
      rfl

end Sweeper

end ExpiringStore
