import ExpiringStore.Proofs.Sweeper.Course

/-!
# Sweeps are made in time

As long as a sweeper runs, the time since its last pass is less than its pause, and its pause is at
most the longest.  So when as many milliseconds go by as the longest pause takes, there is a pass
among them, and entries that had expired are gone (`sweeps_in_time`).

The first part is the invariant of `Timely`.  The second follows from it: without a pass among these
milliseconds the last pass would be the same before and after them, and by then too long ago
(`passes_ticks_ne_nil`).
-/

namespace ExpiringStore

/-- Nothing that the store holds has expired, and its length is the number of live keys. -/
structure Store.Clean {α : Type u} (s : Store α) (now : Instant) : Prop where
  live_of_find? : ∀ key e, s.find? key = some e → e.expired now = false
  length_eq : s.length = UInt64.ofNat (s.heldKeys.countP (s.contains now))
  /-- The word is not too short for it. -/
  length_exact : s.size < 2 ^ 64 → s.length.toNat = s.heldKeys.countP (s.contains now)

/-- A sweep leaves the store clean. -/
lemma Store.Placed.clean_removeExpired {α : Type u} {s : Store α} (hplaced : s.Placed)
    (hcounted : s.Counted) (now : Instant) : (s.removeExpired now).2.Clean now := by
  have hlive : ((s.removeExpired now).2.live now).size = (s.removeExpired now).2.size :=
    congrArg (fun swept => swept.2.size) (s.removeExpired_removeExpired now)
  have hkept : (s.removeExpired now).2.Placed := hplaced.live now
  have hlength : (s.removeExpired now).2.length = UInt64.ofNat (s.removeExpired now).2.size :=
    hcounted.removeExpired now
  have hsize := hlive.symm.trans (hkept.size_live now)
  refine ⟨fun key e hfind => ?_, hlength.trans (congrArg UInt64.ofNat hsize), fun hlt => ?_⟩
  · rw [s.find?_removeExpired, Option.filter_eq_some_iff] at hfind
    simpa using hfind.2
  · rw [hlength, UInt64.toNat_ofNat_of_lt' hlt, hsize]

namespace Sweeper

variable {α : Type u} {t : Timing}

/-! ## What a sweeper keeps -/

/-- What is known of a sweeper and its store after some events, in which it `made` some passes. -/
structure InTime (t : Timing) (events : List (Event α)) (made : List Pass) (w : Sweeper)
    (s : Store α) : Prop where
  /-- The sweeper runs until it is stopped. -/
  running_iff : w.running = true ↔ ∀ event ∈ events, event.isEnd = false
  clock_eq : w.clock = events.countP Event.isTick
  /-- When the last pass was made, or the sweeper was started. -/
  last_eq : w.last = (made.map Pass.clock).getLastD 0
  pause_le : w.pause ≤ t.longest
  /-- The time since then stays below the pause. -/
  since_last : w.running = true → w.last ≤ w.clock ∧ w.clock - w.last < w.pause.ceilMillis
  /-- Where the sweeper runs, the longest pause brings a pass, after which the store is clean. -/
  swept : w.running = true → ∀ now n, t.longest.ceilMillis ≤ n →
    passes (w, s) (List.replicate n (.tick now)) ≠ [] ∧
    (w.advance s now n).2 = (s.removeExpired now).2 ∧ (w.advance s now n).2.Clean now
  /-- Once the sweeper is stopped, the store is changed by its users only. -/
  ended : ∀ last : Event α, last.isEnd = true → ∀ later, course (w, s) (last :: later) =
    ({ w.stop with clock := w.clock + later.countP Event.isTick },
      (s.run (later.filterMap Event.operation?)).2)
  /-- To stop it again changes nothing. -/
  ended_again : ∀ last : Event α, last.isEnd = true → ∀ later,
    course (w, s) (last :: later) =
      course (w, s) (last :: later.filter fun event => !event.isEnd)

/-- The longest pause brings a pass. -/
lemma passes_ticks_ne_nil (h : t.Ordered) (hpos : 0 < t.shortest.nanos) (s : Store α)
    (events : List (Event α)) (hrunning : (course (.start t, s) events).1.running = true)
    (now : Instant) {n : Nat} (hn : t.longest.ceilMillis ≤ n) :
    passes (course (.start t, s) events) (List.replicate n (.tick now)) ≠ [] := by
  intro hnone
  obtain ⟨hbefore, hends⟩ := timely_course h hpos s events
  obtain ⟨hafter, hends'⟩ := timely_course h hpos s (events ++ List.replicate n (.tick now))
  rw [hends] at hrunning
  rw [List.all_append, hrunning, Bool.true_and, List.all_replicate] at hends'
  have hclock := hafter.clock_lt (by rw [hends']; split <;> rfl)
  rw [passes_append, hnone, List.append_nil] at hafter
  -- then the last pass is the same as before, and too long ago
  have hlast := hafter.last_eq.trans hbefore.last_eq.symm
  have hticks := hafter.clock_eq
  rw [List.countP_append, List.countP_replicate, ← hbefore.clock_eq] at hticks
  have hpause := Duration.ceilMillis_mono (hafter.within h).le_longest
  have hle := hbefore.last_le
  simp only [Event.isTick, if_true] at hticks
  omega

/-- **A running sweeper never leaves expired entries for longer than the longest pause.** -/
theorem sweeps_in_time (h : t.Ordered) (hpos : 0 < t.shortest.nanos) (placement : Placement)
    (usual : Expiry) (steps : List (Instant × Store.Step α)) (events : List (Event α)) :
    let origin := (start t, ((Store.empty placement usual).run steps).2)
    let p := course origin events
    InTime t events (passes origin events) p.1 p.2 := by
  intro origin p
  obtain ⟨htimely, hrunning⟩ := timely_course h hpos origin.2 events
  obtain ⟨more, hmore⟩ := exists_run_course origin events
  have hstore : p.2 = ((Store.empty placement usual).run (steps ++ more)).2 := by
    rw [Store.run_append]
    exact hmore
  have hended (last : Event α) (hlast : last.isEnd = true) (later : List (Event α)) :
      course (p.1, p.2) (last :: later) =
        ({ p.1.stop with clock := p.1.clock + later.countP Event.isTick },
          (p.2.run (later.filterMap Event.operation?)).2) := by
    have hcons : course (p.1, p.2) (last :: later) = course (happen p last) later := rfl
    rw [hcons, happen_of_isEnd p hlast]
    exact course_of_not_running rfl p.2 later
  refine ⟨?_, htimely.clock_eq, htimely.last_eq, (htimely.within h).le_longest, fun hruns => ?_,
    fun hruns now n hn => ?_, hended, fun last hlast later => ?_⟩
  · rw [hrunning, List.all_eq_true]
    simp only [Bool.not_eq_true']
  · have hlt : p.1.clock < p.1.last + p.1.pause.ceilMillis := htimely.clock_lt hruns
    have hle : p.1.last ≤ p.1.clock := htimely.last_le
    exact ⟨hle, by omega⟩
  · have hpass := passes_ticks_ne_nil h hpos origin.2 events hruns now hn
    have hswept : (p.1.advance p.2 now n).2 = (p.2.removeExpired now).2 := by
      rw [advance_eq_course, snd_course_ticks, if_neg hpass]
    refine ⟨hpass, hswept, ?_⟩
    rw [hswept, hstore]
    exact (Store.placed_run placement usual _).clean_removeExpired
      (Store.counted_run placement usual _) now
  · have htick (event : Event α) : (event.isTick && !event.isEnd) = event.isTick := by
      cases event <;> rfl
    have hoperation (event : Event α) :
        (if (!event.isEnd) = true then event.operation? else none) = event.operation? := by
      cases event <;> rfl
    rw [hended last hlast, hended last hlast, List.countP_filter, List.filterMap_filter]
    simp only [htick, hoperation]

/-- After pauses of half a millisecond and of one: an entry that expires after the second pass is
removed by the next one, two milliseconds later, and another pass follows that finds nothing. -/
theorem sweeps_in_time_from_half_millis :
    let second (n : UInt64) := Instant.zero.later (.ofSeconds n)
    let t : Timing := ⟨⟨500000, by decide⟩, ⟨300000, by decide⟩, ⟨2500000, by decide⟩⟩
    let steps : List (Instant × Store.Step Nat) :=
      [(second 0, .set [0x61] 1 (some (.after (.ofSeconds 5))))]
    let origin := (start t, ((Store.empty .mixing .never).run steps).2)
    let events := [.use (second 0) (.set [0x62] 2 none), .tick (second 0), .tick (second 0)]
    let p := course origin events
    (t.Ordered ∧ 0 < t.shortest.nanos) ∧ InTime t events (passes origin events) p.1 p.2 ∧
    passes origin (events ++ List.replicate 3 (.tick (second 5))) =
      [⟨1, 0, 2⟩, ⟨2, 0, 2⟩, ⟨4, 1, 2⟩, ⟨5, 0, 1⟩] := by
  intro second t steps origin events p
  have ht : t.Ordered := ⟨by decide, by decide, by decide +kernel⟩
  have hpos : 0 < t.shortest.nanos := by decide
  exact ⟨⟨ht, hpos⟩, sweeps_in_time ht hpos .mixing .never steps events, by decide +kernel⟩

end Sweeper

end ExpiringStore
