import ExpiringStore.Proofs.Store.Alike
import ExpiringStore.Proofs.Store.Size
import Mathlib.Data.List.Induction

/-!
# The books of a store balance

The counters of a store are 64-bit words that are moved up and down by one, or by the number of
entries a sweep has removed.  They are compared here with the operations themselves, counted without
bound.  A `Moment` is one operation in the course of a run, with what it answered and the stores
before and after it; `Moment.gained` and `Moment.lost` are the entries it put in and took away, read
off its answer.

One operation changes the number of entries by what it gained and lost, and the counters by the
same: it is `Booked` (`booked_moment`).  A store and the moments that led to it are `Tallied` when
the counters are the sums over all moments, as words, and a run keeps this (`tallied_run`).  As long
as there are fewer than `2 ^ 64` operations of a kind no word is too short for its sum; then the
counters are the sums themselves, and the books are `Balanced` (`books_balance`).
-/

namespace ExpiringStore.Store

variable {α : Type u}

/-! ## Kinds of operations -/

namespace Step

/-- The operation writes a value. -/
def isSet : Step α → Bool
  | .set .. => true
  | _ => false

/-- The operation reads a value. -/
def isGet : Step α → Bool
  | .get _ => true
  | _ => false

/-- The operation removes an entry. -/
def isDelete : Step α → Bool
  | .delete _ => true
  | _ => false

end Step

/-- The answer is yes. -/
def Answer.isYes : Answer α → Bool
  | .truth b => b
  | _ => false

/-- The number answered, if it is one. -/
def Answer.total : Answer α → Nat
  | .number n => n.toNat
  | _ => 0

/-! ## Operations in the course of a run -/

/-- One operation in the course of a run. -/
structure Moment (α : Type u) where
  before : Store α
  time : Instant
  operation : Step α
  answer : Answer α
  after : Store α

/-- The operation carried out on a store. -/
def moment (s : Store α) (now : Instant) (operation : Step α) : Moment α :=
  ⟨s, now, operation, (s.step now operation).1, (s.step now operation).2⟩

/-- The operations of a run, each with the stores before and after it. -/
def moments (s : Store α) : List (Instant × Step α) → List (Moment α)
  | [] => []
  | (now, operation) :: rest =>
    s.moment now operation :: (s.step now operation).2.moments rest

lemma moments_append (s : Store α) (a b : List (Instant × Step α)) :
    s.moments (a ++ b) = s.moments a ++ (s.run a).2.moments b := by
  induction a generalizing s with
  | nil => rfl
  | cons first a ih => simp only [List.cons_append, moments, run, ih]

lemma map_answer_moments (s : Store α) (steps : List (Instant × Step α)) :
    (s.moments steps).map (·.answer) = (s.run steps).1 := by
  induction steps generalizing s with
  | nil => rfl
  | cons first steps ih => simp only [moments, run, moment, List.map_cons, ih]

lemma countP_operation_moments (s : Store α) (p : Step α → Bool) (steps : List (Instant × Step α)) :
    (s.moments steps).countP (fun m => p m.operation) = steps.countP fun r => p r.2 := by
  induction steps generalizing s with
  | nil => rfl
  | cons first steps ih => simp only [moments, moment, List.countP_cons, ih]

lemma exists_of_mem_moments {s : Store α} {steps : List (Instant × Step α)} {m : Moment α}
    (hm : m ∈ s.moments steps) :
    ∃ front now operation rest, steps = front ++ (now, operation) :: rest ∧
      m = (s.run front).2.moment now operation := by
  induction steps generalizing s with
  | nil => simp [moments] at hm
  | cons first steps ih =>
    obtain ⟨now, operation⟩ := first
    rcases List.mem_cons.1 hm with rfl | hrest
    · exact ⟨[], now, operation, steps, rfl, rfl⟩
    · obtain ⟨front, later, operation', rest, rfl, rfl⟩ := ih hrest
      exact ⟨(now, operation) :: front, later, operation', rest, rfl, rfl⟩

namespace Moment

/-- A write that answered that nothing was there. -/
def creates (m : Moment α) : Bool := m.operation.isSet && m.answer.isYes

/-- A removal that answered that something was there. -/
def deletes (m : Moment α) : Bool := m.operation.isDelete && m.answer.isYes

/-- A read that came across an expired entry, after which that entry is gone. -/
def drops (m : Moment α) : Bool :=
  match m.operation with
  | .get key =>
    ((m.before.find? key).any fun e => e.expired m.time) && (m.after.find? key).isNone
  | _ => false

/-- What a sweep answered. -/
def swept (m : Moment α) : Nat :=
  match m.operation with
  | .removeExpired => m.answer.total
  | _ => 0

/-- The entries that expired and were removed. -/
def cleared (m : Moment α) : Nat := m.drops.toNat + m.swept

/-- The entries put in. -/
def gained (m : Moment α) : Nat := m.creates.toNat

/-- The entries taken away. -/
def lost (m : Moment α) : Nat := m.deletes.toNat + m.cleared

end Moment

/-! ## One operation -/

namespace Moment

/-- The counters as the operation should leave them. -/
def entered (m : Moment α) : Counters where
  keys := m.before.counters.keys + UInt64.ofNat m.gained - UInt64.ofNat m.lost
  gets := m.before.counters.gets + UInt64.ofNat m.operation.isGet.toNat
  sets := m.before.counters.sets + UInt64.ofNat m.operation.isSet.toNat
  dels := m.before.counters.dels + UInt64.ofNat m.operation.isDelete.toNat
  expired := m.before.counters.expired + UInt64.ofNat m.cleared

/-- The operation took away no more entries than there were, the number of entries has followed it,
and so have the counters. -/
structure Booked (m : Moment α) : Prop where
  lost_le : m.lost ≤ m.before.size
  size_eq : m.after.size + m.lost = m.before.size + m.gained
  counters_eq : m.after.counters = m.entered

end Moment

private lemma booked_set (s : Store α) (now : Instant) (key : Bytes) (value : α)
    (expiry : Option Expiry) : (s.moment now (.set key value expiry)).Booked := by
  have hgained : (s.moment now (.set key value expiry)).gained = (s.find? key).isNone.toNat := rfl
  have hlost : (s.moment now (.set key value expiry)).lost = 0 := rfl
  have hcleared : (s.moment now (.set key value expiry)).cleared = 0 := rfl
  have hsize := s.size_insertEntry key (.written now value (expiry.getD s.defaultExpiry))
  have hcounters : (s.moment now (.set key value expiry)).after.counters =
      { s.counters with
        sets := s.counters.sets + 1
        keys := if (s.find? key).isNone then s.counters.keys + 1 else s.counters.keys } := rfl
  refine ⟨hlost ▸ Nat.zero_le _, ?_, ?_⟩
  · rw [hgained, hlost]
    refine hsize.trans ?_
    cases s.find? key <;> rfl
  · rw [hcounters, Moment.entered, hgained, hlost, hcleared]
    cases s.find? key <;> simp [moment, Step.isGet, Step.isSet, Step.isDelete]

private lemma booked_delete (s : Store α) (now : Instant) (key : Bytes) :
    (s.moment now (.delete key)).Booked := by
  have hgained : (s.moment now (.delete key)).gained = 0 := rfl
  have hcleared : (s.moment now (.delete key)).cleared = 0 := rfl
  have hlost : (s.moment now (.delete key)).lost = (s.find? key).isSome.toNat := by
    show (s.delete key).1.toNat + 0 = _
    rw [delete_fst, Nat.add_zero]
  have hafter : (s.moment now (.delete key)).after = (s.delete key).2 := rfl
  rw [delete] at hafter
  by_cases h : (s.find? key).isSome = true
  · have hsize := s.size_eraseEntry h
    rw [if_pos h] at hafter
    rw [h] at hlost
    refine ⟨?_, ?_, ?_⟩
    · rw [hlost]
      exact Nat.le_of_add_left_le hsize.le
    · rw [hafter, hgained, hlost]
      exact hsize
    · rw [hafter, Moment.entered, hgained, hlost, hcleared]
      simp [moment, count, eraseEntry, setShard, Step.isGet, Step.isSet, Step.isDelete]
  · rw [if_neg h] at hafter
    rw [Bool.eq_false_iff.2 h] at hlost
    refine ⟨hlost ▸ Nat.zero_le _, ?_, ?_⟩
    · rw [hafter, hgained, hlost]
      rfl
    · rw [hafter, Moment.entered, hgained, hlost, hcleared]
      simp [moment, count, Step.isGet, Step.isSet, Step.isDelete]

/-- Whatever has expired is gone after a read. -/
private lemma drops_get (s : Store α) (now : Instant) (key : Bytes) :
    (s.moment now (.get key)).drops = (s.find? key).any fun e => e.expired now := by
  have hafter : ((s.moment now (.get key)).after.find? key) =
      (s.find? key).filter fun e => !e.expired now := by
    have h := s.find?_get now key key
    rwa [if_pos rfl] at h
  simp only [Moment.drops, moment] at hafter ⊢
  rw [hafter]
  cases s.find? key with
  | none => rfl
  | some e => cases he : e.expired now <;> simp [Option.filter_some, he]

private lemma booked_get (s : Store α) (now : Instant) (key : Bytes) :
    (s.moment now (.get key)).Booked := by
  have hgained : (s.moment now (.get key)).gained = 0 := rfl
  have hcleared : (s.moment now (.get key)).cleared = (s.moment now (.get key)).drops.toNat := rfl
  have hlost : (s.moment now (.get key)).lost = (s.moment now (.get key)).drops.toNat :=
    Nat.zero_add _
  have hdrops := s.drops_get now key
  have hafter : (s.moment now (.get key)).after = (s.get now key).2 := rfl
  rw [get] at hafter
  -- what an entry that has not expired and no entry at all have in common
  have hkept (h : (s.moment now (.get key)).drops = false)
      (hsnd : (s.moment now (.get key)).after = s.count fun c => { c with gets := c.gets + 1 }) :
      (s.moment now (.get key)).Booked := by
    rw [h] at hlost hcleared
    refine ⟨hlost ▸ Nat.zero_le _, ?_, ?_⟩
    · rw [hsnd, hgained, hlost]
      rfl
    · rw [hsnd, Moment.entered, hgained, hlost, hcleared]
      simp [moment, count, Step.isGet, Step.isSet, Step.isDelete]
  cases hfind : s.find? key with
  | none =>
    rw [hfind] at hdrops hafter
    exact hkept hdrops hafter
  | some e =>
    rw [hfind] at hdrops hafter
    cases he : e.expired now with
    | false =>
      simp only [he, Bool.false_eq_true, if_false] at hafter
      exact hkept (hdrops.trans he) hafter
    | true =>
      have hheld : (s.find? key).isSome = true := by rw [hfind, Option.isSome_some]
      have hsize := s.size_eraseEntry hheld
      simp only [he, if_true] at hafter
      rw [hdrops.trans he] at hlost hcleared
      refine ⟨?_, ?_, ?_⟩
      · rw [hlost]
        exact Nat.le_of_add_left_le hsize.le
      · rw [hafter, hgained, hlost]
        exact hsize
      · rw [hafter, Moment.entered, hgained, hlost, hcleared]
        simp [moment, count, eraseEntry, setShard, Step.isGet, Step.isSet, Step.isDelete]

private lemma booked_removeExpired (s : Store α) (hs : s.size < UInt64.size) (now : Instant) :
    (s.moment now .removeExpired).Booked := by
  have hle := s.size_live_le now
  have hgained : (s.moment now .removeExpired).gained = 0 := rfl
  have hcleared : (s.moment now .removeExpired).cleared = s.size - (s.live now).size := by
    show 0 + (UInt64.ofNat (s.size - (s.live now).size)).toNat = _
    rw [UInt64.toNat_ofNat_of_lt' (by omega), Nat.zero_add]
  have hlost : (s.moment now .removeExpired).lost = s.size - (s.live now).size := by
    rw [Moment.lost, hcleared]
    exact Nat.zero_add _
  refine ⟨?_, ?_, ?_⟩
  · rw [hlost]
    exact Nat.sub_le _ _
  · rw [hgained, hlost]
    show (s.live now).size + (s.size - (s.live now).size) = s.size + 0
    omega
  · rw [Moment.entered, hgained, hlost, hcleared]
    simp [moment, step, removeExpired, live, count, Step.isGet, Step.isSet, Step.isDelete]

/-- An operation that only asks. -/
private lemma booked_of_after_eq_before {m : Moment α} (hgained : m.gained = 0) (hlost : m.lost = 0)
    (hcleared : m.cleared = 0) (hget : m.operation.isGet = false)
    (hset : m.operation.isSet = false) (hdelete : m.operation.isDelete = false)
    (hafter : m.after = m.before) : m.Booked := by
  refine ⟨by omega, by rw [hafter, hgained, hlost], ?_⟩
  simp [Moment.entered, *]

/-- **One operation is booked.** -/
theorem booked_moment (s : Store α) (hs : s.size < UInt64.size) (now : Instant)
    (operation : Step α) : (s.moment now operation).Booked := by
  cases operation with
  | set key value expiry => exact booked_set s now key value expiry
  | get key => exact booked_get s now key
  | delete key => exact booked_delete s now key
  | contains key => exact booked_of_after_eq_before rfl rfl rfl rfl rfl rfl rfl
  | length => exact booked_of_after_eq_before rfl rfl rfl rfl rfl rfl rfl
  | isEmpty => exact booked_of_after_eq_before rfl rfl rfl rfl rfl rfl rfl
  | removeExpired => exact booked_removeExpired s hs now

/-! ## A run -/

/-- The counters are the sums of the moments, as words, and what is held is what was put in and not
taken away. -/
structure Tallied (s : Store α) (ms : List (Moment α)) : Prop where
  size_eq : s.size + ms.countP Moment.deletes + (ms.map Moment.cleared).sum =
    ms.countP Moment.creates
  counters_eq : s.counters =
    { keys := UInt64.ofNat s.size
      gets := UInt64.ofNat (ms.countP fun m => m.operation.isGet)
      sets := UInt64.ofNat (ms.countP fun m => m.operation.isSet)
      dels := UInt64.ofNat (ms.countP fun m => m.operation.isDelete)
      expired := UInt64.ofNat (ms.map Moment.cleared).sum }

private lemma countP_singleton_eq_toNat {β : Type v} (p : β → Bool) (b : β) :
    [b].countP p = (p b).toNat := by
  cases h : p b <;> simp [h]

lemma Tallied.concat {s : Store α} {ms : List (Moment α)} {m : Moment α}
    (h : Tallied s ms) (hbefore : m.before = s) (hm : m.Booked) : Tallied m.after (ms ++ [m]) := by
  subst hbefore
  have hsize := h.size_eq
  have hnext := hm.size_eq
  have hlost := hm.lost_le
  have hafter : m.after.size = m.before.size + m.gained - m.lost := by omega
  refine ⟨?_, ?_⟩
  · simp only [List.countP_append, List.map_append, List.sum_append, List.map_singleton,
      List.sum_singleton, countP_singleton_eq_toNat]
    simp only [Moment.gained, Moment.lost] at hnext
    omega
  · rw [hm.counters_eq, Moment.entered, h.counters_eq, hafter,
      UInt64.ofNat_sub (by omega), UInt64.ofNat_add]
    simp only [List.countP_append, List.map_append, List.sum_append, List.map_singleton,
      List.sum_singleton, countP_singleton_eq_toNat, UInt64.ofNat_add]

lemma countP_creates_le (ms : List (Moment α)) :
    ms.countP Moment.creates ≤ ms.countP fun m => m.operation.isSet := by
  refine List.countP_mono_left fun m _ hm => ?_
  rw [Moment.creates, Bool.and_eq_true] at hm
  exact hm.1

/-- **A run is booked.** -/
lemma tallied_run (placement : Placement) (usual : Expiry) {steps : List (Instant × Step α)}
    (hsets : steps.countP (fun r => r.2.isSet) < UInt64.size) :
    Tallied ((empty placement usual).run steps).2 ((empty placement usual).moments steps) := by
  induction steps using List.reverseRecOn with
  | nil => exact ⟨by rw [run, size_empty]; rfl, by rw [run, size_empty]; rfl⟩
  | append_singleton steps last ih =>
    obtain ⟨now, operation⟩ := last
    rw [List.countP_append] at hsets
    have hrest := ih (by omega)
    have hcreated := countP_creates_le ((empty placement usual).moments steps)
    rw [countP_operation_moments] at hcreated
    have hbound : ((empty placement usual).run steps).2.size < UInt64.size := by
      have hsize := hrest.size_eq
      omega
    rw [run_append, moments_append]
    exact hrest.concat rfl (booked_moment _ hbound now operation)

lemma placed_run (placement : Placement) (usual : Expiry) (steps : List (Instant × Step α)) :
    ((empty placement usual).run steps).2.Placed := by
  induction steps using List.reverseRecOn with
  | nil => exact placed_empty placement usual
  | append_singleton steps last ih =>
    rw [run_append]
    exact ih.step last.1 last.2

lemma calls_step (s : Store α) (now : Instant) {operation : Step α}
    (hset : operation.isSet = false) (hget : operation.isGet = false)
    (hdelete : operation.isDelete = false) : (s.step now operation).2.calls = s.calls := by
  cases operation with
  | set key value expiry => cases hset
  | get key => cases hget
  | delete key => cases hdelete
  | contains key => rfl
  | length => rfl
  | isEmpty => rfl
  | removeExpired => rfl

lemma sum_cleared (ms : List (Moment α)) :
    (ms.map Moment.cleared).sum = (ms.map Moment.swept).sum + ms.countP Moment.drops := by
  induction ms with
  | nil => rfl
  | cons m ms ih =>
    rw [List.map_cons, List.sum_cons, ih, List.map_cons, List.sum_cons, List.countP_cons,
      Moment.cleared]
    cases m.drops <;> simp <;> omega

/-- The books of a store after the operations of a run, each of them with its answer. -/
structure Balanced (s : Store α) (ms : List (Moment α)) : Prop where
  /-- `keys` is the number of entries held over all shards. -/
  keys_eq : s.counters.keys.toNat = s.size
  /-- Every entry held is found under its key, and no other key is found. -/
  held : s.heldKeys.length = s.size ∧ s.heldKeys.Nodup ∧
    ∀ key, key ∈ s.heldKeys ↔ (s.find? key).isSome = true
  /-- `keys` is also what was created, less what was deleted and what has expired. -/
  created_eq : ms.countP Moment.creates =
    s.counters.keys.toNat + ms.countP Moment.deletes + s.counters.expired.toNat
  /-- `expired` is what sweeps have answered and what reads have removed. -/
  expired_eq : s.counters.expired.toNat = (ms.map Moment.swept).sum + ms.countP Moment.drops
  sets_eq : s.counters.sets.toNat = ms.countP fun m => m.operation.isSet
  gets_eq : s.counters.gets.toNat = ms.countP fun m => m.operation.isGet
  dels_eq : s.counters.dels.toNat = ms.countP fun m => m.operation.isDelete
  /-- No operation takes `keys` below zero, or past the last word. -/
  keys_exact : ∀ m ∈ ms, m.lost ≤ m.before.counters.keys.toNat ∧
    m.after.counters.keys.toNat = m.before.counters.keys.toNat - m.lost + m.gained
  /-- Only reads, writes and removals are counted as such. -/
  calls_eq : ∀ m ∈ ms, m.operation.isSet = false → m.operation.isGet = false →
    m.operation.isDelete = false → m.after.calls = m.before.calls
  /-- The store is empty when nothing is held, live or expired. -/
  isEmpty_iff : s.isEmpty = true ↔ ∀ key, s.find? key = none

/-- `keys` is not too short for the number of entries held. -/
lemma keys_run (placement : Placement) (usual : Expiry) {steps : List (Instant × Step α)}
    (hsets : steps.countP (fun r => r.2.isSet) < UInt64.size) :
    ((empty placement usual).run steps).2.size < UInt64.size ∧
    ((empty placement usual).run steps).2.counters.keys.toNat =
      ((empty placement usual).run steps).2.size := by
  have htallied := tallied_run placement usual hsets
  have hcreated := countP_creates_le ((empty placement usual).moments steps)
  rw [countP_operation_moments] at hcreated
  have hlt : ((empty placement usual).run steps).2.size < UInt64.size := by
    have hsize := htallied.size_eq
    omega
  refine ⟨hlt, ?_⟩
  rw [htallied.counters_eq, UInt64.toNat_ofNat_of_lt' hlt]

/-- No operation of a run takes `keys` below zero. -/
lemma keys_exact_of_mem_moments (placement : Placement) (usual : Expiry)
    {steps : List (Instant × Step α)}
    (hsets : steps.countP (fun r => r.2.isSet) < UInt64.size) {m : Moment α}
    (hm : m ∈ (empty placement usual).moments steps) :
    m.lost ≤ m.before.counters.keys.toNat ∧
    m.after.counters.keys.toNat = m.before.counters.keys.toNat - m.lost + m.gained := by
  obtain ⟨front, now, operation, rest, rfl, rfl⟩ := exists_of_mem_moments hm
  have hnext : (front ++ [(now, operation)]).countP (fun r => r.2.isSet) < UInt64.size := by
    rw [List.countP_append, List.countP_cons] at hsets
    rw [List.countP_append, List.countP_singleton]
    omega
  have hfront : front.countP (fun r => r.2.isSet) < UInt64.size := by
    rw [List.countP_append] at hnext
    omega
  obtain ⟨hlt, hbefore⟩ := keys_run placement usual hfront
  obtain ⟨-, hafter⟩ := keys_run placement usual hnext
  rw [run_append] at hafter
  have hbooked := booked_moment _ hlt now operation
  have hlost := hbooked.lost_le
  have hsize := hbooked.size_eq
  simp only [moment, run] at hlost hsize hafter ⊢
  omega

lemma Placed.isEmpty_iff {s : Store α} (h : s.Placed) (hkeys : s.counters.keys.toNat = s.size) :
    s.isEmpty = true ↔ ∀ key, s.find? key = none := by
  have hzero : s.isEmpty = true ↔ s.heldKeys = [] := by
    rw [isEmpty, length, beq_iff_eq, ← List.length_eq_zero_iff, length_heldKeys, ← hkeys,
      ← UInt64.toNat_inj]
    rfl
  rw [hzero, List.eq_nil_iff_forall_not_mem]
  refine forall_congr' fun key => ?_
  rw [h.mem_heldKeys_iff, Bool.not_eq_true, Option.isSome_eq_false_iff, Option.isNone_iff_eq_none]

/-- **The books of a store balance.**  Operations of any kind are carried out one after another on a
store that is empty at first, whatever the clock reads at each, and fewer than `2 ^ 64` of them are
writes, as many reads, and as many removals.  Then the counters are what the operations and their
answers come to. -/
theorem books_balance (placement : Placement) (usual : Expiry) {steps : List (Instant × Step α)}
    (hsets : steps.countP (fun r => r.2.isSet) < 2 ^ 64)
    (hgets : steps.countP (fun r => r.2.isGet) < 2 ^ 64)
    (hdels : steps.countP (fun r => r.2.isDelete) < 2 ^ 64) :
    ((empty placement usual).moments steps).map (·.answer) =
      ((empty placement usual).run steps).1 ∧
    Balanced ((empty placement usual).run steps).2 ((empty placement usual).moments steps) := by
  refine ⟨map_answer_moments _ steps, ?_⟩
  have hwords : steps.countP (fun r => r.2.isSet) < UInt64.size := hsets
  obtain ⟨-, hkeys⟩ := keys_run placement usual hwords
  have htallied := tallied_run placement usual hwords
  have hplaced := placed_run placement usual steps
  have hcounters := htallied.counters_eq
  have hsize := htallied.size_eq
  rw [← countP_operation_moments (empty placement usual)] at hsets hgets hdels
  have hcreated := countP_creates_le ((empty placement usual).moments steps)
  have hcleared : (((empty placement usual).moments steps).map Moment.cleared).sum < 2 ^ 64 := by
    omega
  have hexpired : ((empty placement usual).run steps).2.counters.expired.toNat =
      (((empty placement usual).moments steps).map Moment.cleared).sum := by
    rw [hcounters, UInt64.toNat_ofNat_of_lt' hcleared]
  refine ⟨hkeys, ⟨length_heldKeys _, hplaced.nodup_heldKeys, fun _ => hplaced.mem_heldKeys_iff⟩,
    ?_, ?_, ?_, ?_, ?_, ?_, ?_, hplaced.isEmpty_iff hkeys⟩
  · rw [hexpired, hkeys, ← hsize]
  · rw [hexpired, sum_cleared]
  · rw [hcounters, UInt64.toNat_ofNat_of_lt' hsets]
  · rw [hcounters, UInt64.toNat_ofNat_of_lt' hgets]
  · rw [hcounters, UInt64.toNat_ofNat_of_lt' hdels]
  · intro m hm
    rw [countP_operation_moments] at hsets
    exact keys_exact_of_mem_moments placement usual hsets hm
  · intro m hm hset hget hdelete
    obtain ⟨front, now, operation, rest, rfl, rfl⟩ := exists_of_mem_moments hm
    exact calls_step _ now hset hget hdelete

/-- Of four entries that have reached their deadline one is replaced, one deleted, one read and one
swept away; two entries are left. -/
theorem books_balance_at_deadlines :
    let second (n : UInt64) := Instant.zero.later (.ofSeconds n)
    let five : Option Expiry := some (.after (.ofSeconds 5))
    let steps : List (Instant × Step Nat) :=
      [(second 0, .set [0x61] 1 five), (second 0, .set [0x62] 2 five),
        (second 0, .set [0x63] 3 five), (second 0, .set [0x64] 4 none),
        (second 0, .set [0x65] 5 five), (second 5, .set [0x61] 6 none),
        (second 5, .delete [0x62]), (second 5, .get [0x63]), (second 5, .removeExpired)]
    let s := ((empty .mixing .never).run steps).2
    let ms := (empty .mixing .never).moments steps
    (steps.countP (fun r => r.2.isSet) < 2 ^ 64 ∧ steps.countP (fun r => r.2.isGet) < 2 ^ 64 ∧
      steps.countP (fun r => r.2.isDelete) < 2 ^ 64) ∧
    Balanced s ms ∧ s.counters = ⟨2, 1, 6, 1, 2⟩ ∧ ms.countP Moment.creates = 5 := by
  intro second five steps s ms
  have hsets : steps.countP (fun r => r.2.isSet) < 2 ^ 64 := by decide
  have hgets : steps.countP (fun r => r.2.isGet) < 2 ^ 64 := by decide
  have hdels : steps.countP (fun r => r.2.isDelete) < 2 ^ 64 := by decide
  have hcounters : s.counters = ⟨2, 1, 6, 1, 2⟩ := by decide +kernel
  obtain ⟨-, hbalanced⟩ := books_balance .mixing .never hsets hgets hdels
  refine ⟨⟨hsets, hgets, hdels⟩, hbalanced, hcounters, ?_⟩
  rw [hbalanced.created_eq, hcounters]
  decide +kernel

end ExpiringStore.Store
