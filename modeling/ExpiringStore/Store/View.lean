import ExpiringStore.Store.Basic

/-!
# What each operation does to the entries held

`Store.find?` is the view of a store. Every operation changes it at the key that the operation
names and nowhere else, whichever shard the keys belong to; removing expired entries keeps exactly
those whose deadline has not been reached.
-/

namespace ExpiringStore.Store

variable {α : Type u}

@[simp] theorem find?_empty (placement : Placement) (expiry : Expiry) (key : Bytes) :
    (empty placement expiry : Store α).find? key = none := by
  simp [find?, shard, empty]

@[simp] theorem find?_count (s : Store α) (f : Counters → Counters) (key : Bytes) :
    (s.count f).find? key = s.find? key := rfl

theorem shard_setShard (s : Store α) (key other : Bytes) (new : Shard α) :
    (s.setShard key new).shard other =
      if s.placement other = s.placement key then new else s.shard other := by
  unfold setShard shard
  by_cases h : s.placement other = s.placement key
  · simp [h]
  · have hne : (s.placement key).val ≠ (s.placement other).val := fun he => h (Fin.ext he.symm)
    simp [h, hne]

/-- A change to the shard of a key that leaves all other keys alone changes the view at that key
only. -/
theorem find?_setShard (s : Store α) (key : Bytes) (new : Shard α) (e : Option (Entry α))
    (hnew : ∀ k, new[k]? = if k = key then e else (s.shard key)[k]?) (other : Bytes) :
    (s.setShard key new).find? other = if other = key then e else s.find? other := by
  unfold find?
  rw [shard_setShard]
  by_cases hp : s.placement other = s.placement key
  · have hs : s.shard other = s.shard key := by simp [shard, hp]
    rw [if_pos hp, hnew, hs]
  · have hk : other ≠ key := fun he => hp (by rw [he])
    rw [if_neg hp, if_neg hk]

theorem find?_insertEntry (s : Store α) (key other : Bytes) (e : Entry α) :
    (s.insertEntry key e).find? other = if other = key then some e else s.find? other := by
  refine find?_setShard s key _ _ (fun k => ?_) other
  rw [Std.ExtTreeMap.getElem?_insert]
  by_cases h : k = key
  · simp [h]
  · have : compare key k ≠ .eq := fun he => h (Std.LawfulEqCmp.eq_of_compare he).symm
    simp [h, this]

theorem find?_eraseEntry (s : Store α) (key other : Bytes) :
    (s.eraseEntry key).find? other = if other = key then none else s.find? other := by
  refine find?_setShard s key _ _ (fun k => ?_) other
  rw [Std.ExtTreeMap.getElem?_erase]
  by_cases h : k = key
  · simp [h]
  · have : compare key k ≠ .eq := fun he => h (Std.LawfulEqCmp.eq_of_compare he).symm
    simp [h, this]

theorem find?_live (s : Store α) (now : Instant) (key : Bytes) :
    (s.live now).find? key = (s.find? key).filter fun e => !e.expired now := by
  simp [find?, shard, live]

/-- A write puts its entry under its key. -/
theorem find?_set (s : Store α) (now : Instant) (key : Bytes) (value : α) (expiry : Option Expiry)
    (other : Bytes) :
    (s.set now key value expiry).2.find? other =
      if other = key then some (.written now value (expiry.getD s.defaultExpiry))
      else s.find? other := by
  simp [set, find?_insertEntry]

/-- A removal leaves nothing under its key. -/
theorem find?_delete (s : Store α) (key other : Bytes) :
    (s.delete key).2.find? other = if other = key then none else s.find? other := by
  unfold delete
  split
  · simp [find?_eraseEntry]
  · rename_i h
    by_cases hk : other = key
    · subst hk
      simpa using h
    · simp [hk]

/-- A read leaves under its key what has not expired. -/
theorem find?_get (s : Store α) (now : Instant) (key other : Bytes) :
    (s.get now key).2.find? other =
      if other = key then (s.find? key).filter fun e => !e.expired now else s.find? other := by
  unfold get
  split
  · rename_i h
    by_cases hk : other = key
    · subst hk
      simp [h]
    · simp [hk]
  · rename_i e h
    split <;> rename_i he <;> by_cases hk : other = key <;>
      simp [find?_eraseEntry, Option.filter_some, h, he, hk]

/-- Removing expired entries leaves under each key what has not expired. -/
theorem find?_removeExpired (s : Store α) (now : Instant) (key : Bytes) :
    (s.removeExpired now).2.find? key = (s.find? key).filter fun e => !e.expired now := by
  simp [removeExpired, find?_live]

/-- A read answers with the value that has not expired. -/
theorem get_fst (s : Store α) (now : Instant) (key : Bytes) :
    (s.get now key).1 = ((s.find? key).filter fun e => !e.expired now).map (·.value) := by
  unfold get
  split
  · rename_i h
    simp [h]
  · rename_i e h
    split <;> rename_i he <;> simp [Option.filter_some, h, he]

end ExpiringStore.Store
