import ExpiringStore.Proofs.Store.Step
import Mathlib.Data.List.Induction

/-!
# Answers from the history

What a store answers can be told from the operations before, with no store at all.  The history of a
key is settled by the latest operation that wrote or removed it.  If that was a write, its value is
live until its lifetime is over (`History.Live`).  The entry is held longer than that: until a read
of the key or a sweep comes across it (`History.Held`), and this is what writes and removals answer
by.

`find?_run` carries the argument: an entry is held exactly if the history has a write of it that
nothing has taken away since.  It is an induction over the history from its end, in which an
operation either settles the key anew, or clears away what has expired there, or does nothing.
-/

namespace ExpiringStore.Store

variable {α : Type u}

/-- Operations that were carried out, each at its time, the earliest first. -/
abbrev History (α : Type u) := List (Instant × Step α)

/-- The operation writes or removes the key. -/
def Step.Touches (key : Bytes) : Step α → Prop
  | .set written _ _ => written = key
  | .delete removed => removed = key
  | .get _ => False
  | .contains _ => False
  | .length => False
  | .isEmpty => False
  | .removeExpired => False

/-- The operation takes away what has expired under the key. -/
def Step.Clears (key : Bytes) : Step α → Prop
  | .get read => read = key
  | .removeExpired => True
  | .set _ _ _ => False
  | .delete _ => False
  | .contains _ => False
  | .length => False
  | .isEmpty => False

/-- What is held under the key after the operation was written by it, or was held before and neither
replaced nor cleared away. -/
lemma Step.leaves_eq_some_iff {usual : Expiry} {now : Instant} {key : Bytes}
    {held : Option (Entry α)} {step : Step α} {e : Entry α} :
    step.leaves usual now key held = some e ↔
      (∃ value expiry, step = .set key value expiry ∧
        e = .written now value (expiry.getD usual)) ∨
      (¬ step.Touches key ∧ held = some e ∧ (step.Clears key → e.expired now = false)) := by
  cases step with
  | set written value ttl =>
    by_cases hk : key = written
    · subst hk
      simp only [leaves, Touches, if_true, Option.some.injEq, not_true, false_and, or_false]
      constructor
      · rintro rfl
        exact ⟨value, ttl, rfl, rfl⟩
      · rintro ⟨_, _, hset, rfl⟩
        cases hset
        rfl
    · simp [leaves, Touches, Clears, hk, Ne.symm hk]
  | get read =>
    by_cases hk : key = read
    · simp [leaves, Touches, Clears, hk, Option.filter_eq_some_iff]
    · simp [leaves, Touches, Clears, hk, Ne.symm hk]
  | delete removed =>
    by_cases hk : key = removed
    · simp [leaves, Touches, hk]
    · simp [leaves, Touches, Clears, hk, Ne.symm hk]
  | contains _ => simp [leaves, Touches, Clears]
  | length => simp [leaves, Touches, Clears]
  | isEmpty => simp [leaves, Touches, Clears]
  | removeExpired => simp [leaves, Touches, Clears, Option.filter_eq_some_iff]

namespace History

/-- The latest operation that wrote or removed the key is this write, and `later` has followed. -/
structure LastWrite (history : History α) (key : Bytes) (time : Instant) (value : α)
    (expiry : Option Expiry) (later : History α) : Prop where
  exists_eq : ∃ earlier, history = earlier ++ (time, .set key value expiry) :: later
  untouched : ∀ r ∈ later, ¬ r.2.Touches key

/-- The value was written last, and its lifetime, which is the usual one unless it was given, is not
over at `now`. -/
def Live (usual : Expiry) (history : History α) (now : Instant) (key : Bytes) (value : α) : Prop :=
  ∃ time expiry later, history.LastWrite key time value expiry later ∧
    ¬ (expiry.getD usual).Reached time now

/-- The key was last written so, and no read of the key and no sweep has come once the lifetime was
over. -/
def Keeps (usual : Expiry) (history : History α) (key : Bytes) (time : Instant) (value : α)
    (expiry : Option Expiry) : Prop :=
  ∃ later, history.LastWrite key time value expiry later ∧
    ∀ r ∈ later, r.2.Clears key → ¬ (expiry.getD usual).Reached time r.1

/-- Something is held under the key, expired or not. -/
def Held (usual : Expiry) (history : History α) (key : Bytes) : Prop :=
  ∃ time value expiry, history.Keeps usual key time value expiry

/-- What may be answered to an operation at `now`. -/
def Answers (usual : Expiry) (history : History α) (now : Instant) : Step α → Answer α → Prop
  | .get key, .value found => ∀ v, found = some v ↔ history.Live usual now key v
  | .contains key, .truth b => b = true ↔ ∃ v, history.Live usual now key v
  | .set key _ _, .truth created => created = false ↔ history.Held usual key
  | .delete key, .truth removed => removed = true ↔ history.Held usual key
  | .length, .number _ => True
  | .isEmpty, .truth _ => True
  | .removeExpired, .number _ => True
  | _, _ => False

/-! ## One operation more -/

variable {usual : Expiry} {history : History α} {key : Bytes} {now time : Instant} {value : α}
  {expiry : Option Expiry}

/-- The last write is the operation that came last, or else that operation has not touched the key
and the last write is what it was. -/
lemma lastWrite_concat {step : Step α} {later : History α} :
    LastWrite (history ++ [(now, step)]) key time value expiry later ↔
      (step = .set key value expiry ∧ time = now ∧ later = []) ∨
      (¬ step.Touches key ∧ ∃ before, later = before ++ [(now, step)] ∧
        LastWrite history key time value expiry before) := by
  constructor
  · rintro ⟨⟨earlier, heq⟩, huntouched⟩
    rcases List.eq_nil_or_concat later with rfl | ⟨before, last, rfl⟩
    · obtain ⟨-, hlast⟩ := List.append_inj' heq rfl
      cases hlast
      exact .inl ⟨rfl, rfl, rfl⟩
    · rw [List.concat_eq_append] at heq huntouched ⊢
      rw [← List.cons_append, ← List.append_assoc] at heq
      obtain ⟨hhistory, hlast⟩ := List.append_inj' heq rfl
      cases hlast
      refine .inr ⟨huntouched (now, step) (by simp), before, rfl, ⟨earlier, hhistory⟩, ?_⟩
      exact fun r hr => huntouched r (List.mem_append_left _ hr)
  · rintro (⟨rfl, rfl, rfl⟩ | ⟨hstep, before, rfl, ⟨earlier, rfl⟩, huntouched⟩)
    · exact ⟨⟨history, rfl⟩, by simp⟩
    · refine ⟨⟨earlier, by simp⟩, ?_⟩
      intro r hr
      rcases List.mem_append.1 hr with hbefore | hlast
      · exact huntouched r hbefore
      · rw [List.mem_singleton.1 hlast]
        exact hstep

lemma keeps_concat {step : Step α} :
    Keeps usual (history ++ [(now, step)]) key time value expiry ↔
      (step = .set key value expiry ∧ time = now) ∨
      (¬ step.Touches key ∧ Keeps usual history key time value expiry ∧
        (step.Clears key → ¬ (expiry.getD usual).Reached time now)) := by
  simp only [Keeps, lastWrite_concat]
  constructor
  · rintro ⟨later, ⟨hset, htime, -⟩ | ⟨hstep, before, rfl, hlast⟩, hcleared⟩
    · exact .inl ⟨hset, htime⟩
    · refine .inr ⟨hstep, ⟨before, hlast, ?_⟩, hcleared (now, step) (by simp)⟩
      exact fun r hr => hcleared r (List.mem_append_left _ hr)
  · rintro (⟨hset, htime⟩ | ⟨hstep, ⟨before, hlast, hcleared⟩, hnow⟩)
    · exact ⟨[], .inl ⟨hset, htime, rfl⟩, by simp⟩
    · refine ⟨before ++ [(now, step)], .inr ⟨hstep, before, rfl, hlast⟩, ?_⟩
      intro r hr
      rcases List.mem_append.1 hr with hbefore | hstep
      · exact hcleared r hbefore
      · rw [List.mem_singleton.1 hstep]
        exact hnow

/-- As long as the lifetime of the last write is not over, nothing can have taken it away. -/
lemma LastWrite.keeps {later : History α} (h : LastWrite history key time value expiry later)
    (hclock : ∀ r ∈ history, r.1 ≤ now) (hlive : ¬ (expiry.getD usual).Reached time now) :
    Keeps usual history key time value expiry := by
  refine ⟨later, h, ?_⟩
  intro r hr _ hreached
  obtain ⟨earlier, rfl⟩ := h.exists_eq
  have hbefore : r.1 ≤ now := hclock r (by simp [hr])
  exact hlive (hreached.mono hbefore)

end History

/-! ## The entries held -/

section Run

open History

variable {placement : Placement} {usual : Expiry} {history : History α} {key : Bytes}
  {now : Instant}

/-- **What is held is what was written and not taken away.** -/
theorem find?_run {e : Entry α} :
    ((empty placement usual).run history).2.find? key = some e ↔
      ∃ time value expiry, history.Keeps usual key time value expiry ∧
        e = .written time value (expiry.getD usual) := by
  induction history using List.reverseRecOn generalizing e with
  | nil =>
    have hnone : ¬ ∃ time value expiry, Keeps usual ([] : History α) key time value expiry ∧
        e = .written time value (expiry.getD usual) := by
      rintro ⟨_, _, _, ⟨_, ⟨⟨earlier, heq⟩, -⟩, -⟩, -⟩
      exact absurd heq.symm (by simp)
    simpa [run] using hnone
  | append_singleton history last ih =>
    obtain ⟨now, step⟩ := last
    have hlast := find?_step ((empty placement usual).run history).2 now step key
    rw [defaultExpiry_run] at hlast
    rw [run_append]
    refine (iff_of_eq (congrArg (· = some e) hlast)).trans ?_
    simp only [Step.leaves_eq_some_iff, keeps_concat, ih]
    constructor
    · rintro (⟨value, expiry, hset, he⟩ | ⟨hstep, ⟨time, value, expiry, hkeeps, rfl⟩, hclears⟩)
      · exact ⟨now, value, expiry, .inl ⟨hset, rfl⟩, he⟩
      · refine ⟨time, value, expiry, .inr ⟨hstep, hkeeps, fun h hreached => ?_⟩, rfl⟩
        rw [(Entry.expired_written_iff time now value _).2 hreached] at hclears
        exact absurd (hclears h) (by simp)
    · rintro ⟨time, value, expiry, ⟨hset, rfl⟩ | ⟨hstep, hkeeps, hclears⟩, rfl⟩
      · exact .inl ⟨value, expiry, hset, rfl⟩
      · refine .inr ⟨hstep, ⟨time, value, expiry, hkeeps, rfl⟩, fun h => ?_⟩
        rw [Bool.eq_false_iff, Ne, Entry.expired_written_iff]
        exact hclears h

lemma isSome_find?_run :
    (((empty placement usual).run history).2.find? key).isSome = true ↔
      history.Held usual key := by
  simp only [Option.isSome_iff_exists, find?_run, Held]
  constructor
  · rintro ⟨_, time, value, expiry, hkeeps, -⟩
    exact ⟨time, value, expiry, hkeeps⟩
  · rintro ⟨time, value, expiry, hkeeps⟩
    exact ⟨_, time, value, expiry, hkeeps, rfl⟩

lemma visible_run (hclock : ∀ r ∈ history, r.1 ≤ now) {value : α} :
    ((empty placement usual).run history).2.visible now key = some value ↔
      history.Live usual now key value := by
  simp only [visible, Option.map_eq_some_iff, Option.filter_eq_some_iff, find?_run,
    Bool.not_eq_eq_eq_not, Bool.not_true]
  constructor
  · rintro ⟨_, ⟨⟨time, value, expiry, ⟨later, hlast, -⟩, rfl⟩, hlive⟩, rfl⟩
    refine ⟨time, expiry, later, hlast, fun hreached => ?_⟩
    rw [(Entry.expired_written_iff time now value _).2 hreached] at hlive
    cases hlive
  · rintro ⟨time, expiry, later, hlast, hlive⟩
    refine ⟨_, ⟨⟨time, value, expiry, hlast.keeps hclock hlive, rfl⟩, ?_⟩, rfl⟩
    rw [Bool.eq_false_iff, Ne, Entry.expired_written_iff]
    exact hlive

/-- What a store answers is what its history tells. -/
lemma answers_step (hclock : ∀ r ∈ history, r.1 ≤ now) (step : Step α) :
    history.Answers usual now step
      (((empty placement usual).run history).2.step now step).1 := by
  cases step with
  | set key value expiry =>
    show (find? _ key).isNone = false ↔ _
    exact Option.isNone_eq_false_iff.trans isSome_find?_run
  | get key =>
    intro v
    show (get _ now key).1 = some v ↔ _
    rw [get_eq_visible, visible_run hclock]
  | delete key =>
    show (delete _ key).1 = true ↔ _
    rw [delete_fst, isSome_find?_run]
  | contains key =>
    show contains _ now key = true ↔ _
    rw [contains_eq_isSome_visible, Option.isSome_iff_exists]
    simp only [visible_run hclock]
  | length => trivial
  | isEmpty => trivial
  | removeExpired => trivial

/-- **A store is one map with deadlines.**  Operations of any kind are carried out one after another
on a store that is empty at first, by a clock that does not go back.  Then each of them is answered
by what its history tells; what is held at the end is what the whole history tells; and of what is
answered about a key nothing changes if all operations on other keys are left out. -/
theorem run_answers_by_history (placement : Placement) (usual : Expiry) {steps : History α}
    (hclock : (steps.map Prod.fst).Pairwise (· ≤ ·)) :
    (∀ history now step rest, steps = history ++ (now, step) :: rest →
      ∃ answer, ((empty placement usual).run steps).1[history.length]? = some answer ∧
        History.Answers usual history now step answer) ∧
    (∀ key, (((empty placement usual).run steps).2.find? key).isSome = true ↔
      steps.Held usual key) ∧
    ∀ key, answersAbout key steps ((empty placement usual).run steps).1 =
      answersAbout key (withoutOthers key steps)
        ((empty placement usual).run (withoutOthers key steps)).1 := by
  refine ⟨?_, fun key => isSome_find?_run, fun key => answersAbout_withoutOthers rfl rfl steps⟩
  rintro history now step rest rfl
  have hbefore : ∀ r ∈ history, r.1 ≤ now := by
    intro r hr
    rw [List.map_append, List.pairwise_append] at hclock
    exact hclock.2.2 r.1 (List.mem_map_of_mem hr) now (by simp)
  exact ⟨_, run_getElem?_length _ history rest now step, answers_step hbefore step⟩

/-- Two keys over ten seconds.  The first value of `a` is replaced at its deadline, while it is
still held; the second is read at its deadline, and is gone then. -/
theorem run_answers_at_deadlines :
    let a : Bytes := [0x61]
    let b : Bytes := [0x62]
    let second (n : UInt64) := Instant.zero.later (.ofSeconds n)
    let five : Option Expiry := some (.after (.ofSeconds 5))
    let steps : History Nat := [(second 0, .set a 1 five), (second 0, .set b 2 none),
      (second 5, .set a 3 five), (second 10, .get a), (second 10, .delete a), (second 10, .get b)]
    (steps.map Prod.fst).Pairwise (· ≤ ·) ∧
    ((empty .mixing .never).run steps).1 =
      [.truth true, .truth true, .truth false, .value none, .truth false, .value (some 2)] ∧
    History.Held .never (steps.take 2) a ∧ ¬ History.Held .never (steps.take 4) a ∧
    History.Live .never (steps.take 5) (second 10) b 2 := by
  intro a b second five steps
  have hclock : (steps.map Prod.fst).Pairwise (· ≤ ·) := by decide +kernel
  have hrun : ((empty .mixing .never).run steps).1 =
      [.truth true, .truth true, .truth false, .value none, .truth false, .value (some 2)] := by
    decide +kernel
  obtain ⟨htold, -⟩ := run_answers_by_history .mixing .never hclock
  rw [hrun] at htold
  obtain ⟨_, hset, hheld⟩ := htold (steps.take 2) _ _ _ rfl
  obtain ⟨_, hdelete, hgone⟩ := htold (steps.take 4) _ _ _ rfl
  obtain ⟨_, hget, hlive⟩ := htold (steps.take 5) _ _ _ rfl
  cases hset
  cases hdelete
  cases hget
  refine ⟨hclock, hrun, hheld.1 rfl, fun h => ?_, (hlive 2).1 rfl⟩
  exact absurd (hgone.2 h) (by decide)

end Run

end ExpiringStore.Store
