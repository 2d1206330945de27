import ExpiringStore.Proofs.Store.Visible

/-!
# Stores that cannot be told apart by reading

An entry that has expired may still be held in one store and be gone from another.  From then on no
read answers differently for it: the two stores are alike (`Store.AlikeAt`) if what is live in them
is the same, with the same deadlines, and if they have counted the same calls.  Their numbers of
entries, and of entries that were cleared away, may differ.

Stores that are alike stay so when time passes, and under reads, writes and removals of the same
keys.  A sweep of one of them cannot be noticed either (`AlikeAt.removeExpired_right`).
-/

namespace ExpiringStore.Store

variable {α : Type u}

/-- The reads, writes and removals counted. -/
def calls (s : Store α) : UInt64 × UInt64 × UInt64 :=
  (s.counters.gets, s.counters.sets, s.counters.dels)

lemma calls_set (s : Store α) (now : Instant) (key : Bytes) (value : α) (expiry : Option Expiry) :
    (s.set now key value expiry).2.calls = (s.calls.1, s.calls.2.1 + 1, s.calls.2.2) := rfl

lemma calls_get (s : Store α) (now : Instant) (key : Bytes) :
    (s.get now key).2.calls = (s.calls.1 + 1, s.calls.2) := by
  unfold get
  split
  · rfl
  · split <;> rfl

lemma calls_delete (s : Store α) (key : Bytes) :
    (s.delete key).2.calls = (s.calls.1, s.calls.2.1, s.calls.2.2 + 1) := by
  unfold delete
  split <;> rfl

/-! ## What is live -/

lemma live_get (s : Store α) (now : Instant) (key other : Bytes) :
    ((s.get now key).2.live now).find? other = (s.live now).find? other := by
  rw [find?_live, find?_live, find?_get]
  by_cases hk : other = key
  · rw [if_pos hk, filter_filter_expired _ Instant.le_rfl, hk]
  · rw [if_neg hk]

lemma live_removeExpired (s : Store α) (now : Instant) (key : Bytes) :
    ((s.removeExpired now).2.live now).find? key = (s.live now).find? key := by
  rw [find?_live, find?_live, find?_removeExpired, filter_filter_expired _ Instant.le_rfl]

/-- What is live at `now` is the same in both stores, and so are the default lifetime and the calls
counted. -/
structure AlikeAt (now : Instant) (s t : Store α) : Prop where
  defaultExpiry_eq : s.defaultExpiry = t.defaultExpiry
  live_eq : ∀ key, (s.live now).find? key = (t.live now).find? key
  calls_eq : s.calls = t.calls

namespace AlikeAt

variable {now : Instant} {s t : Store α}

lemma refl (now : Instant) (s : Store α) : AlikeAt now s s := ⟨rfl, fun _ => rfl, rfl⟩

/-- What is not live now will not be live later. -/
lemma mono (h : AlikeAt now s t) {u : Instant} (hle : now ≤ u) : AlikeAt u s t := by
  refine ⟨h.defaultExpiry_eq, fun key => ?_, h.calls_eq⟩
  have hnow := h.live_eq key
  rw [find?_live, find?_live] at hnow ⊢
  rw [← filter_filter_expired _ hle, hnow, filter_filter_expired _ hle]

lemma visible_eq (h : AlikeAt now s t) (key : Bytes) : s.visible now key = t.visible now key := by
  rw [visible, ← find?_live, h.live_eq, find?_live, visible]

lemma set (h : AlikeAt now s t) (key : Bytes) (value : α) (expiry : Option Expiry) :
    AlikeAt now (s.set now key value expiry).2 (t.set now key value expiry).2 := by
  refine ⟨h.defaultExpiry_eq, fun other => ?_, by rw [calls_set, calls_set, h.calls_eq]⟩
  have hother := h.live_eq other
  rw [find?_live, find?_live] at hother ⊢
  rw [find?_set, find?_set, h.defaultExpiry_eq]
  by_cases hk : other = key
  · rw [if_pos hk, if_pos hk]
  · rw [if_neg hk, if_neg hk, hother]

lemma delete (h : AlikeAt now s t) (key : Bytes) :
    AlikeAt now (s.delete key).2 (t.delete key).2 := by
  refine ⟨?_, fun other => ?_, by rw [calls_delete, calls_delete, h.calls_eq]⟩
  · rw [defaultExpiry_delete, defaultExpiry_delete, h.defaultExpiry_eq]
  · have hother := h.live_eq other
    rw [find?_live, find?_live] at hother ⊢
    rw [find?_delete, find?_delete]
    by_cases hk : other = key
    · rw [if_pos hk, if_pos hk]
    · rw [if_neg hk, if_neg hk, hother]

lemma get (h : AlikeAt now s t) (key : Bytes) :
    AlikeAt now (s.get now key).2 (t.get now key).2 := by
  refine ⟨?_, fun other => ?_, by rw [calls_get, calls_get, h.calls_eq]⟩
  · rw [defaultExpiry_get, defaultExpiry_get, h.defaultExpiry_eq]
  · rw [live_get, live_get, h.live_eq]

/-- A sweep takes away nothing that is live. -/
lemma removeExpired_right (h : AlikeAt now s t) : AlikeAt now s (t.removeExpired now).2 := by
  refine ⟨h.defaultExpiry_eq, fun key => ?_, h.calls_eq⟩
  rw [live_removeExpired, h.live_eq]

lemma removeExpired_left (h : AlikeAt now s t) : AlikeAt now (s.removeExpired now).2 t := by
  refine ⟨h.defaultExpiry_eq, fun key => ?_, h.calls_eq⟩
  rw [live_removeExpired, h.live_eq]

/-! ## Several keys -/

lemma getAll (h : AlikeAt now s t) (keys : List Bytes) :
    AlikeAt now (s.getAll now keys) (t.getAll now keys) := by
  induction keys generalizing s t with
  | nil => exact h
  | cons key keys ih => exact ih (h.get key)

lemma deleteAll (h : AlikeAt now s t) (keys : List Bytes) :
    AlikeAt now (s.deleteAll keys) (t.deleteAll keys) := by
  induction keys generalizing s t with
  | nil => exact h
  | cons key keys ih => exact ih (h.delete key)

end AlikeAt

end ExpiringStore.Store
