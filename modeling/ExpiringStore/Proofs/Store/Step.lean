import ExpiringStore.Proofs.Store.Visible
import ExpiringStore.Store.Step

/-!
# What an operation does to one key

Seen from one key, an operation puts an entry there, takes away what is there, takes it away if it
has expired, or does nothing; `Step.leaves` says which.  What is answered to an operation that names
the key depends on nothing but the entry held there and the time.  So nothing that happens under one
key can be told from what is answered under another (`answersAbout_withoutOthers`).
-/

namespace ExpiringStore.Store

variable {α : Type u}

/-- The key that an operation names. -/
def Step.key? : Step α → Option Bytes
  | .set key _ _ => some key
  | .get key => some key
  | .delete key => some key
  | .contains key => some key
  | .length => none
  | .isEmpty => none
  | .removeExpired => none

/-- What is held under `key` after the operation, if `held` was before it. -/
def Step.leaves (expiry : Expiry) (now : Instant) (key : Bytes) (held : Option (Entry α)) :
    Step α → Option (Entry α)
  | .set written value ttl =>
    if key = written then some (.written now value (ttl.getD expiry)) else held
  | .delete removed => if key = removed then none else held
  | .get read => if key = read then held.filter fun e => !e.expired now else held
  | .removeExpired => held.filter fun e => !e.expired now
  | .contains _ => held
  | .length => held
  | .isEmpty => held

/-! ## One operation -/

lemma delete_fst (s : Store α) (key : Bytes) : (s.delete key).1 = (s.find? key).isSome := by
  unfold delete
  split <;> simp_all

lemma contains_eq_isSome_visible (s : Store α) (now : Instant) (key : Bytes) :
    s.contains now key = (s.visible now key).isSome := by
  unfold contains visible
  cases s.find? key with
  | none => rfl
  | some e => cases he : e.expired now <;> simp [Option.filter_some, he]

/-- **What an operation does to one key.** -/
theorem find?_step (s : Store α) (now : Instant) (step : Step α) (key : Bytes) :
    (s.step now step).2.find? key = step.leaves s.defaultExpiry now key (s.find? key) := by
  cases step with
  | set written value ttl => exact s.find?_set now written value ttl key
  | get read =>
    refine (s.find?_get now read key).trans ?_
    rw [Step.leaves]
    by_cases hk : key = read
    · rw [if_pos hk, if_pos hk, hk]
    · rw [if_neg hk, if_neg hk]
  | delete removed => exact s.find?_delete removed key
  | contains _ => rfl
  | length => rfl
  | isEmpty => rfl
  | removeExpired => exact s.find?_removeExpired now key

lemma defaultExpiry_step (s : Store α) (now : Instant) (step : Step α) :
    (s.step now step).2.defaultExpiry = s.defaultExpiry := by
  cases step with
  | set key value ttl => exact s.defaultExpiry_set now key value ttl
  | get key => exact s.defaultExpiry_get now key
  | delete key => exact s.defaultExpiry_delete key
  | contains _ => rfl
  | length => rfl
  | isEmpty => rfl
  | removeExpired => rfl

lemma Step.leaves_of_key?_ne {step : Step α} {key other : Bytes} (h : step.key? = some other)
    (hne : other ≠ key) (expiry : Expiry) (now : Instant) (held : Option (Entry α)) :
    step.leaves expiry now key held = held := by
  cases step <;> simp only [Step.key?, reduceCtorEq, Option.some.injEq] at h <;> subst h <;>
    simp [Step.leaves, Ne.symm hne]

/-- What is answered about a key depends on what is held there. -/
lemma step_fst_congr {s t : Store α} {step : Step α} {key : Bytes} (hkey : step.key? = some key)
    (h : s.find? key = t.find? key) (now : Instant) :
    (s.step now step).1 = (t.step now step).1 := by
  have hvisible : s.visible now key = t.visible now key := by rw [visible, h, visible]
  cases step <;> simp only [Step.key?, reduceCtorEq, Option.some.injEq] at hkey <;> subst hkey
  · simp only [step, set, h]
  · simp only [step, get_eq_visible, hvisible]
  · simp only [step, delete_fst, h]
  · simp only [step, contains_eq_isSome_visible, hvisible]

/-! ## Operations one after another -/

lemma run_append (s : Store α) (a b : List (Instant × Step α)) :
    s.run (a ++ b) =
      ((s.run a).1 ++ ((s.run a).2.run b).1, ((s.run a).2.run b).2) := by
  induction a generalizing s with
  | nil => rfl
  | cons first a ih => simp only [List.cons_append, run, ih]

lemma length_run (s : Store α) (steps : List (Instant × Step α)) :
    (s.run steps).1.length = steps.length := by
  induction steps generalizing s with
  | nil => rfl
  | cons first steps ih => simp only [run, List.length_cons, ih]

lemma defaultExpiry_run (s : Store α) (steps : List (Instant × Step α)) :
    (s.run steps).2.defaultExpiry = s.defaultExpiry := by
  induction steps generalizing s with
  | nil => rfl
  | cons first steps ih => exact (ih _).trans (s.defaultExpiry_step first.1 first.2)

/-- The answer to an operation in the course of others. -/
lemma run_getElem?_length (s : Store α) (history rest : List (Instant × Step α)) (now : Instant)
    (step : Step α) :
    (s.run (history ++ (now, step) :: rest)).1[history.length]? =
      some ((s.run history).2.step now step).1 := by
  rw [run_append, ← s.length_run history, List.getElem?_append_right (Nat.le_refl _), Nat.sub_self]
  rfl

/-! ## One key among others -/

/-- The answers to the operations that name the key. -/
def answersAbout (key : Bytes) (steps : List (Instant × Step α)) (answers : List (Answer α)) :
    List (Answer α) :=
  ((steps.zip answers).filter fun r => r.1.2.key? = some key).map Prod.snd

/-- The operations that name no other key. -/
def withoutOthers (key : Bytes) (steps : List (Instant × Step α)) : List (Instant × Step α) :=
  steps.filter fun r => r.2.key?.all (· = key)

/-- The answers about a key stay the same if all operations on other keys are left out. -/
lemma answersAbout_withoutOthers {s t : Store α} {key : Bytes} (h : s.find? key = t.find? key)
    (hexpiry : s.defaultExpiry = t.defaultExpiry) (steps : List (Instant × Step α)) :
    answersAbout key steps (s.run steps).1 =
      answersAbout key (withoutOthers key steps) (t.run (withoutOthers key steps)).1 := by
  induction steps generalizing s t with
  | nil => rfl
  | cons first steps ih =>
    obtain ⟨now, step⟩ := first
    have hs := s.find?_step now step key
    have ht := t.find?_step now step key
    have hes := s.defaultExpiry_step now step
    have het := t.defaultExpiry_step now step
    -- an operation that is not left out does the same to the key in both stores
    have hboth : (s.step now step).2.find? key = (t.step now step).2.find? key := by
      rw [hs, ht, h, hexpiry]
    have hrest := ih hboth (by rw [hes, het, hexpiry])
    cases hkey : step.key? with
    | none =>
      simpa [answersAbout, withoutOthers, run, hkey] using hrest
    | some named =>
      by_cases hnamed : named = key
      · subst hnamed
        have hanswer := step_fst_congr hkey h now
        simpa [answersAbout, withoutOthers, run, hkey, hanswer] using hrest
      · rw [Step.leaves_of_key?_ne hkey hnamed] at hs
        have hother := ih (hs.trans h) (hes.trans hexpiry)
        simpa [answersAbout, withoutOthers, run, hkey, hnamed] using hother

end ExpiringStore.Store
