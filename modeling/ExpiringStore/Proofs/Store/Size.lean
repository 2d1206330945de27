import ExpiringStore.Proofs.Store.Step
import Mathlib.Algebra.GroupWithZero.Nat
import Mathlib.Algebra.Order.BigOperators.Group.List
import Mathlib.Algebra.Order.Group.Nat
import Mathlib.Data.List.Nodup

/-!
# How many entries a store holds

`Store.size` adds up what the shards hold.  Putting another shard in the place of one changes the
sum by the difference of the two, so an operation on one key changes it by one entry at most.

An entry could be counted in a shard and still not be found, if it were in a shard that its key does
not belong to.  This never happens: operations leave every entry in its place (`Placed.step`).  In
such a store the keys of all shards are the keys under which something is found, each once
(`Placed.mem_heldKeys_iff`, `Placed.nodup_heldKeys`), and there are as many of them as entries.
-/

namespace ExpiringStore.Store

variable {α : Type u}

/-! ## The sum over the shards -/

lemma size_eq_sum (s : Store α) : s.size = (s.shards.toList.map (·.size)).sum := by
  unfold size
  induction s.shards.toList with
  | nil => rfl
  | cons shard shards ih => rw [List.foldr_cons, ih, List.map_cons, List.sum_cons]

/-- Another shard in the place of one. -/
lemma size_setShard (s : Store α) (key : Bytes) (new : Shard α) :
    (s.setShard key new).size + (s.shard key).size = s.size + new.size := by
  have hlt : (s.placement key).val < (s.shards.toList.map (·.size)).length := by
    rw [List.length_map, Vector.length_toList]
    exact (s.placement key).isLt
  have hold : (s.shards.toList.map (·.size))[(s.placement key).val] = (s.shard key).size := by
    simp [shard]
  have hnew : (s.setShard key new).size =
      ((s.shards.toList.map (·.size)).set (s.placement key).val new.size).sum := by
    rw [size_eq_sum, ← List.map_set, ← Vector.toList_set (s.placement key).isLt]
    rfl
  -- both sums agree outside of the place of the shard
  have hsum := List.sum_set (s.shards.toList.map (·.size)) (s.placement key).val (s.shard key).size
  rw [← hold, List.set_getElem_self, ← size_eq_sum, if_pos hlt] at hsum
  rw [hnew, List.sum_set, if_pos hlt, hsum, hold]
  omega

lemma contains_shard (s : Store α) (key : Bytes) :
    (s.shard key).contains key = (s.find? key).isSome := by
  rw [find?, Std.ExtTreeMap.contains_eq_isSome_getElem?]

lemma size_empty (placement : Placement) (expiry : Expiry) :
    (empty placement expiry : Store α).size = 0 := by
  rw [size_eq_sum]
  simp [empty]

lemma size_insertEntry (s : Store α) (key : Bytes) (e : Entry α) :
    (s.insertEntry key e).size = if (s.find? key).isSome then s.size else s.size + 1 := by
  have hsum := s.size_setShard key ((s.shard key).insert key e)
  rw [Std.ExtTreeMap.size_insert, contains_shard] at hsum
  rw [insertEntry]
  split_ifs at hsum ⊢ <;> omega

lemma size_eraseEntry (s : Store α) {key : Bytes} (h : (s.find? key).isSome = true) :
    (s.eraseEntry key).size + 1 = s.size := by
  have hsum := s.size_setShard key ((s.shard key).erase key)
  have hle : (s.shard key).size ≤ ((s.shard key).erase key).size + 1 :=
    Std.ExtTreeMap.size_le_size_erase
  have hne : (s.shard key).size ≠ 0 := by
    intro hzero
    rw [← contains_shard, Std.ExtTreeMap.eq_empty_iff_size_eq_zero.2 hzero] at h
    simp at h
  rw [Std.ExtTreeMap.size_erase, contains_shard, if_pos h] at hsum hle
  rw [eraseEntry]
  omega

lemma size_live_le (s : Store α) (now : Instant) : (s.live now).size ≤ s.size := by
  have hshards : (s.live now).shards.toList =
      s.shards.toList.map (·.filter fun _ e => !e.expired now) :=
    Vector.toList_map
  rw [size_eq_sum, size_eq_sum, hshards, List.map_map]
  refine List.sum_le_sum fun shard _ => ?_
  exact Std.ExtTreeMap.size_filter_le_size

/-! ## The keys held -/

/-- Every entry is in the shard that its key belongs to. -/
def Placed (s : Store α) : Prop :=
  ∀ (i : Fin shardCount) (key : Bytes), key ∈ s.shards[i] → s.placement key = i

/-- The keys of all shards. -/
def heldKeys (s : Store α) : List Bytes := s.shards.toList.flatMap (·.keys)

lemma length_heldKeys (s : Store α) : s.heldKeys.length = s.size := by
  rw [heldKeys, List.length_flatMap, size_eq_sum]
  simp only [Std.ExtTreeMap.length_keys]

lemma mem_shard_iff (s : Store α) (key : Bytes) :
    key ∈ s.shard key ↔ (s.find? key).isSome = true := by
  rw [find?, Std.ExtTreeMap.mem_iff_isSome_getElem?]

namespace Placed

variable {s : Store α}

/-- **What is in the shards is what is found.** -/
lemma mem_heldKeys_iff (h : s.Placed) {key : Bytes} :
    key ∈ s.heldKeys ↔ (s.find? key).isSome = true := by
  rw [heldKeys, List.mem_flatMap, ← mem_shard_iff]
  constructor
  · rintro ⟨shard, hshard, hkey⟩
    obtain ⟨i, hi, rfl⟩ := List.getElem_of_mem hshard
    rw [Vector.length_toList] at hi
    rw [Vector.getElem_toList, Std.ExtTreeMap.mem_keys] at hkey
    have hplace : s.placement key = ⟨i, hi⟩ := h ⟨i, hi⟩ key hkey
    simp only [shard, hplace]
    exact hkey
  · intro hkey
    refine ⟨s.shard key, ?_, Std.ExtTreeMap.mem_keys.2 hkey⟩
    exact Vector.mem_toList_iff.2 (Vector.getElem_mem _)

/-- No key is in two shards. -/
lemma nodup_heldKeys (h : s.Placed) : s.heldKeys.Nodup := by
  rw [heldKeys, List.nodup_flatMap]
  refine ⟨fun shard _ => Std.ExtTreeMap.nodup_keys, ?_⟩
  rw [List.pairwise_iff_getElem]
  intro i j hi hj hij key hkeyi hkeyj
  rw [Vector.length_toList] at hi hj
  rw [Vector.getElem_toList, Std.ExtTreeMap.mem_keys] at hkeyi hkeyj
  have hplacei : s.placement key = ⟨i, hi⟩ := h ⟨i, hi⟩ key hkeyi
  have hplacej : s.placement key = ⟨j, hj⟩ := h ⟨j, hj⟩ key hkeyj
  have hsame : i = j := congrArg Fin.val (hplacei.symm.trans hplacej)
  omega

/-- A shard for `key` may hold that key and what was in the shard before. -/
lemma setShard (h : s.Placed) {key : Bytes} {new : Shard α}
    (hnew : ∀ k ∈ new, k = key ∨ k ∈ s.shard key) : (s.setShard key new).Placed := by
  intro i k hk
  have hshard : (s.setShard key new).shards[i] =
      if (s.placement key).val = i.val then new else s.shards[i] :=
    Vector.getElem_set (s.placement key).isLt i.isLt
  rw [hshard] at hk
  by_cases hi : (s.placement key).val = i.val
  · rw [if_pos hi] at hk
    rcases hnew k hk with rfl | hold
    · exact Fin.ext hi
    · exact (h _ k hold).trans (Fin.ext hi)
  · rw [if_neg hi] at hk
    exact h i k hk

lemma insertEntry (h : s.Placed) (key : Bytes) (e : Entry α) : (s.insertEntry key e).Placed := by
  refine h.setShard fun k hk => ?_
  rcases Std.ExtTreeMap.mem_insert.1 hk with heq | hold
  · exact .inl (Std.LawfulEqCmp.eq_of_compare heq).symm
  · exact .inr hold

lemma eraseEntry (h : s.Placed) (key : Bytes) : (s.eraseEntry key).Placed :=
  h.setShard fun _ hk => .inr (Std.ExtTreeMap.mem_erase.1 hk).2

lemma live (h : s.Placed) (now : Instant) : (s.live now).Placed := by
  intro i k hk
  have hshard : (s.live now).shards[i] = s.shards[i].filter fun _ e => !e.expired now :=
    Vector.getElem_map ..
  rw [hshard] at hk
  obtain ⟨hold, -⟩ := Std.ExtTreeMap.mem_filter.1 hk
  exact h i k hold

/-- **Operations leave every entry in its place.** -/
lemma step (h : s.Placed) (now : Instant) (operation : Step α) :
    (s.step now operation).2.Placed := by
  cases operation with
  | set key value expiry => exact h.insertEntry key _
  | get key =>
    show (s.get now key).2.Placed
    rw [Store.get]
    split
    · exact h
    · split
      · exact h.eraseEntry key
      · exact h
  | delete key =>
    show (s.delete key).2.Placed
    rw [Store.delete]
    split
    · exact h.eraseEntry key
    · exact h
  | contains key => exact h
  | length => exact h
  | isEmpty => exact h
  | removeExpired => exact h.live now

end Placed

lemma placed_empty (placement : Placement) (expiry : Expiry) :
    (empty placement expiry : Store α).Placed := by
  intro i key hkey
  simp [empty] at hkey

end ExpiringStore.Store
