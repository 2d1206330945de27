import ExpiringStore.Proofs.Time.Deadline
import ExpiringStore.Store.View

/-!
# What a read would answer

`Store.visible` is the value that a read of a key would answer at some time.  Writes and removals
change it at their own key only.  Reads and sweeps remove expired entries, which no read from then
on would have answered with: seen from any time that is not before their own, they change nothing.
-/

namespace ExpiringStore.Store

variable {α : Type u}

/-- What a read at `t` would answer. -/
def visible (s : Store α) (t : Instant) (key : Bytes) : Option α :=
  ((s.find? key).filter fun e => !e.expired t).map (·.value)

lemma get_eq_visible (s : Store α) (now : Instant) (key : Bytes) :
    (s.get now key).1 = s.visible now key :=
  s.get_fst now key

lemma visible_of_find?_eq_none {s : Store α} {key : Bytes} (h : s.find? key = none) (t : Instant) :
    s.visible t key = none := by
  simp [visible, h]

lemma visible_set (s : Store α) (now t : Instant) (key other : Bytes) (value : α)
    (expiry : Option Expiry) :
    (s.set now key value expiry).2.visible t other =
      if other = key then
        if (expiry.getD s.defaultExpiry).Reached now t then none else some value
      else s.visible t other := by
  rw [visible, find?_set]
  by_cases hk : other = key
  · rw [if_pos hk, if_pos hk, Option.filter_some]
    by_cases he : (expiry.getD s.defaultExpiry).Reached now t
    · simp [(Entry.expired_written_iff now t value _).2 he, he]
    · have hlive := mt (Entry.expired_written_iff now t value _).1 he
      simp [hlive, he]
  · rw [if_neg hk, if_neg hk]
    rfl

lemma visible_delete (s : Store α) (t : Instant) (key other : Bytes) :
    (s.delete key).2.visible t other = if other = key then none else s.visible t other := by
  rw [visible, find?_delete]
  by_cases hk : other = key
  · simp [hk]
  · simp [hk, visible]

/-- Entries that are gone at `now` cannot be read later either. -/
lemma filter_filter_expired (o : Option (Entry α)) {now t : Instant} (h : now ≤ t) :
    (o.filter fun e => !e.expired now).filter (fun e => !e.expired t) =
      o.filter fun e => !e.expired t := by
  rw [Option.filter_filter]
  congr 1
  funext e
  cases hnow : e.expired now with
  | false => simp
  | true => simp [Entry.expired_mono h hnow]

lemma visible_get (s : Store α) {now t : Instant} (h : now ≤ t) (key other : Bytes) :
    (s.get now key).2.visible t other = s.visible t other := by
  rw [visible, find?_get]
  by_cases hk : other = key
  · rw [if_pos hk, filter_filter_expired _ h, hk]
    rfl
  · rw [if_neg hk]
    rfl

lemma visible_removeExpired (s : Store α) {now t : Instant} (h : now ≤ t) (key : Bytes) :
    (s.removeExpired now).2.visible t key = s.visible t key := by
  rw [visible, find?_removeExpired, filter_filter_expired _ h]
  rfl

/-! ## The default lifetime -/

@[simp] lemma defaultExpiry_set (s : Store α) (now : Instant) (key : Bytes) (value : α)
    (expiry : Option Expiry) : (s.set now key value expiry).2.defaultExpiry = s.defaultExpiry := rfl

@[simp] lemma defaultExpiry_delete (s : Store α) (key : Bytes) :
    (s.delete key).2.defaultExpiry = s.defaultExpiry := by
  unfold delete
  split <;> rfl

@[simp] lemma defaultExpiry_get (s : Store α) (now : Instant) (key : Bytes) :
    (s.get now key).2.defaultExpiry = s.defaultExpiry := by
  unfold get
  split
  · rfl
  · split <;> rfl

/-! ## Several keys -/

/-- The store after a read of each key, in order. -/
def getAll (s : Store α) (now : Instant) (keys : List Bytes) : Store α :=
  keys.foldl (fun s key => (s.get now key).2) s

/-- The store after a removal of each key, in order. -/
def deleteAll (s : Store α) (keys : List Bytes) : Store α :=
  keys.foldl (fun s key => (s.delete key).2) s

lemma visible_getAll (s : Store α) {now t : Instant} (h : now ≤ t) (keys : List Bytes)
    (other : Bytes) : (s.getAll now keys).visible t other = s.visible t other := by
  induction keys generalizing s with
  | nil => rfl
  | cons key keys ih => exact (ih (s.get now key).2).trans (s.visible_get h key other)

lemma visible_deleteAll (s : Store α) (t : Instant) (keys : List Bytes) (other : Bytes) :
    (s.deleteAll keys).visible t other = if other ∈ keys then none else s.visible t other := by
  induction keys generalizing s with
  | nil => simp [deleteAll]
  | cons key keys ih =>
    refine (ih (s.delete key).2).trans ?_
    rw [visible_delete]
    by_cases hkeys : other ∈ keys
    · simp [hkeys]
    · by_cases hkey : other = key
      · simp [hkey]
      · simp [hkeys, hkey]

@[simp] lemma defaultExpiry_getAll (s : Store α) (now : Instant) (keys : List Bytes) :
    (s.getAll now keys).defaultExpiry = s.defaultExpiry := by
  induction keys generalizing s with
  | nil => rfl
  | cons key keys ih => exact (ih (s.get now key).2).trans (s.defaultExpiry_get now key)

@[simp] lemma defaultExpiry_deleteAll (s : Store α) (keys : List Bytes) :
    (s.deleteAll keys).defaultExpiry = s.defaultExpiry := by
  induction keys generalizing s with
  | nil => rfl
  | cons key keys ih => exact (ih (s.delete key).2).trans (s.defaultExpiry_delete key)

end ExpiringStore.Store
