import ExpiringStore.Proofs.Store.Size
import ExpiringStore.Proofs.Store.Touch
import Mathlib.Data.Finset.Card
import Mathlib.Data.List.Induction

/-!
# Taking entries away under several keys

A read takes away what has expired under its key, and a removal takes away whatever is there.  Such
a `Store.Removal` is settled under a key once it has been done there: doing it again only counts
another call.  So a list of keys comes down to the set of them, and to the number of calls.

This is said of what is held (`getElem?_shards_removeAll`, `find?_removeAll`), of the number of
entries (`size_removeAll`) and of the counters (`counters_removeAll`), each by one more key at the
end of the list: the key is new, or it is settled.  In what order the keys come does not matter at
all (`touchAll_perm`).
-/

namespace ExpiringStore

/-- What is added when the same is added so many times. -/
def Counters.times (n : Nat) (c : Counters) : Counters :=
  ⟨UInt64.ofNat n * c.keys, UInt64.ofNat n * c.gets, UInt64.ofNat n * c.sets,
    UInt64.ofNat n * c.dels, UInt64.ofNat n * c.expired⟩

namespace Counters

lemma plus_assoc (a b c : Counters) : (a.plus b).plus c = a.plus (b.plus c) := by
  simp only [plus, UInt64.add_assoc]

lemma plus_plus_plus_comm (a b c d : Counters) :
    (a.plus b).plus (c.plus d) = (a.plus c).plus (b.plus d) := by
  rw [← plus_assoc, plus_right_comm a b c, plus_assoc]

lemma times_add (m n : Nat) (c : Counters) : c.times (m + n) = (c.times m).plus (c.times n) := by
  simp only [times, plus, UInt64.ofNat_add, UInt64.add_mul]

lemma times_one (c : Counters) : c.times 1 = c := by
  simp only [times, UInt64.ofNat_one, UInt64.one_mul]

end Counters

namespace Store

variable {α : Type u}

/-- An operation that takes away what is held under a key if it is of some kind. -/
structure Removal (α : Type u) where
  /-- The entries that it takes away. -/
  takes : Entry α → Bool
  /-- What each call adds to the counters. -/
  called : Counters
  /-- What a call adds besides that takes an entry away. -/
  taken : Counters

namespace Removal

/-- What it does under one key. -/
def touch (r : Removal α) : Touch α where
  leaves _ held := held.filter fun e => !r.takes e
  adds held := r.called.plus (r.taken.times (held.any r.takes).toNat)

/-- A read takes away what has expired. -/
def get (now : Instant) : Removal α where
  takes := Entry.expired now
  called := { Counters.zero with gets := 1 }
  taken := { Counters.zero with keys := -1, expired := 1 }

/-- A removal takes away what is there. -/
def delete : Removal α where
  takes _ := true
  called := { Counters.zero with dels := 1 }
  taken := { Counters.zero with keys := -1 }

lemma touch_get (now : Instant) : (get now : Removal α).touch = .get now := by
  simp only [touch, get, Touch.get, Touch.mk.injEq, true_and]
  funext held
  cases held.any (·.expired now) <;> simp [Counters.plus, Counters.times, Counters.zero]

lemma touch_delete : (delete : Removal α).touch = .delete := by
  simp only [touch, delete, Touch.delete, Touch.mk.injEq]
  refine ⟨?_, ?_⟩
  · funext _ held
    cases held <;> rfl
  · funext held
    cases held <;> simp [Counters.plus, Counters.times, Counters.zero]

end Removal

/-! ## The order of the keys -/

/-- **The order of the keys does not matter.** -/
lemma touchAll_perm (s : Store α) {keys others : List Bytes} (h : keys.Perm others) (t : Touch α) :
    s.touchAll keys t = s.touchAll others t :=
  h.foldl_eq' (fun _ _ _ _ s => s.touch_comm fun _ => rfl) s

lemma touchAll_concat (s : Store α) (keys : List Bytes) (key : Bytes) (t : Touch α) :
    s.touchAll (keys ++ [key]) t = (s.touchAll keys t).touch key t :=
  List.foldl_concat ..

@[simp] lemma placement_touchAll (s : Store α) (keys : List Bytes) (t : Touch α) :
    (s.touchAll keys t).placement = s.placement := by
  induction keys generalizing s with
  | nil => rfl
  | cons key keys ih => exact ih (s.touch key t)

/-! ## What is held -/

variable (s : Store α) (r : Removal α)

/-- **What a removal of several keys leaves**, shard by shard. -/
lemma getElem?_shards_removeAll (keys : List Bytes) (i : Fin shardCount) (name : Bytes) :
    ((s.touchAll keys r.touch).shards.get i)[name]? =
      if i = s.placement name ∧ name ∈ keys then
        ((s.shards.get i)[name]?).filter fun e => !r.takes e
      else (s.shards.get i)[name]? := by
  induction keys using List.reverseRecOn with
  | nil => simp [touchAll]
  | append_singleton keys key ih =>
    have hshards : ((s.touchAll (keys ++ [key]) r.touch).shards.get i)[name]? =
        if i = s.placement key ∧ name = key then
          ((s.touchAll keys r.touch).find? key).filter fun e => !r.takes e
        else ((s.touchAll keys r.touch).shards.get i)[name]? := by
      rw [touchAll_concat, ← s.placement_touchAll keys r.touch]
      exact getElem?_shards_put ..
    have hfind : (s.touchAll keys r.touch).find? key =
        ((s.touchAll keys r.touch).shards.get (s.placement key))[key]? := by
      rw [← s.placement_touchAll keys r.touch]
      rfl
    rw [hshards, ih]
    by_cases hkey : name = key
    · subst hkey
      by_cases hi : i = s.placement name
      · subst hi
        rw [if_pos ⟨rfl, rfl⟩, hfind, ih]
        -- what was settled before is settled now
        by_cases hmem : name ∈ keys <;> simp [hmem, Option.filter_filter]
      · simp [hi]
    · simp [hkey]

/-- **What a removal of several keys leaves.** -/
lemma find?_removeAll (keys : List Bytes) (name : Bytes) :
    (s.touchAll keys r.touch).find? name =
      if name ∈ keys then (s.find? name).filter fun e => !r.takes e else s.find? name := by
  have hfind : (s.touchAll keys r.touch).find? name =
      ((s.touchAll keys r.touch).shards.get (s.placement name))[name]? := by
    rw [← s.placement_touchAll keys r.touch]
    rfl
  rw [hfind, getElem?_shards_removeAll]
  simp only [true_and]
  rfl

/-- Only which keys there are matters for what is left. -/
lemma shards_removeAll_congr {keys others : List Bytes} (h : ∀ key, key ∈ keys ↔ key ∈ others) :
    (s.touchAll keys r.touch).shards = (s.touchAll others r.touch).shards := by
  refine Vector.ext fun i hi => Std.ExtTreeMap.ext_getElem? fun {name} => ?_
  have hkeys := s.getElem?_shards_removeAll r keys ⟨i, hi⟩ name
  have hothers := s.getElem?_shards_removeAll r others ⟨i, hi⟩ name
  simp only [← h] at hothers
  exact hkeys.trans hothers.symm

/-! ## What is counted -/

/-- The keys among those listed under which an entry is taken away. -/
def takenAmong (keys : List Bytes) : Finset Bytes :=
  keys.toFinset.filter fun key => (s.find? key).any r.takes = true

/-- One more key is among them if it is new and an entry is taken away there. -/
lemma card_takenAmong_concat (keys : List Bytes) (key : Bytes) :
    (s.takenAmong r (keys ++ [key])).card =
      (s.takenAmong r keys).card +
        (((s.touchAll keys r.touch).find? key).any r.takes).toNat := by
  have hlist : (keys ++ [key]).toFinset = insert key keys.toFinset := by
    rw [List.toFinset_append, Finset.union_comm]
    rfl
  rw [takenAmong, hlist, Finset.filter_insert, find?_removeAll, ← takenAmong]
  by_cases hmem : key ∈ keys
  · -- it has been settled
    have hnone : ((s.find? key).filter fun e => !r.takes e).any r.takes = false := by
      cases s.find? key with
      | none => rfl
      | some e => cases htakes : r.takes e <;> simp [Option.filter_some, htakes]
    have hinsert : (if (s.find? key).any r.takes = true then insert key (s.takenAmong r keys)
        else s.takenAmong r keys) = s.takenAmong r keys := by
      split_ifs with htaken
      · refine Finset.insert_eq_of_mem ?_
        rw [takenAmong, Finset.mem_filter, List.mem_toFinset]
        exact ⟨hmem, htaken⟩
      · rfl
    rw [if_pos hmem, hnone, hinsert]
    rfl
  · have hnew : key ∉ s.takenAmong r keys := by
      rw [takenAmong, Finset.mem_filter, List.mem_toFinset]
      exact fun h => hmem h.1
    rw [if_neg hmem]
    cases (s.find? key).any r.takes with
    | false => rfl
    | true => exact Finset.card_insert_of_notMem hnew

/-- **What a removal of several keys adds to the counters.** -/
lemma counters_removeAll (keys : List Bytes) :
    (s.touchAll keys r.touch).counters =
      (s.counters.plus (r.called.times keys.length)).plus
        (r.taken.times (s.takenAmong r keys).card) := by
  induction keys using List.reverseRecOn with
  | nil => simp [touchAll, takenAmong, Counters.plus, Counters.times]
  | append_singleton keys key ih =>
    have hcounters : (s.touchAll (keys ++ [key]) r.touch).counters =
        (s.touchAll keys r.touch).counters.plus (r.called.plus
          (r.taken.times (((s.touchAll keys r.touch).find? key).any r.takes).toNat)) := by
      rw [touchAll_concat]
      rfl
    rw [hcounters, ih, card_takenAmong_concat, List.length_append, List.length_singleton,
      Counters.times_add, Counters.times_add, Counters.times_one, Counters.plus_plus_plus_comm,
      Counters.plus_assoc s.counters]

lemma size_touch_removal (key : Bytes) :
    (s.touch key r.touch).size + ((s.find? key).any r.takes).toNat = s.size := by
  show (s.put key ((s.find? key).filter fun e => !r.takes e)).size + _ = _
  have hsame := s.put_find? key
  cases hfind : s.find? key with
  | none =>
    rw [hfind] at hsame
    rw [Option.filter_none, hsame]
    rfl
  | some e =>
    rw [hfind] at hsame
    cases htakes : r.takes e with
    | false => simp [Option.filter_some, htakes, hsame]
    | true =>
      have hheld : (s.find? key).isSome = true := by rw [hfind, Option.isSome_some]
      have hsize := s.size_eraseEntry hheld
      rw [eraseEntry_eq_put] at hsize
      simpa [Option.filter_some, htakes] using hsize

/-- **How many entries a removal of several keys takes away.** -/
lemma size_removeAll (keys : List Bytes) :
    (s.touchAll keys r.touch).size + (s.takenAmong r keys).card = s.size := by
  induction keys using List.reverseRecOn with
  | nil => simp [touchAll, takenAmong]
  | append_singleton keys key ih =>
    have hstep := (s.touchAll keys r.touch).size_touch_removal r key
    rw [touchAll_concat, card_takenAmong_concat]
    omega

/-! ## Reads and removals -/

lemma getAll_eq_removeAll (now : Instant) (keys : List Bytes) :
    s.getAll now keys = s.touchAll keys (Removal.get now).touch := by
  rw [getAll_eq_touchAll, Removal.touch_get]

lemma deleteAll_eq_removeAll (keys : List Bytes) :
    s.deleteAll keys = s.touchAll keys Removal.delete.touch := by
  rw [deleteAll_eq_touchAll, Removal.touch_delete]

lemma counters_getAll (now : Instant) (keys : List Bytes) :
    let gone := UInt64.ofNat (s.takenAmong (.get now) keys).card
    (s.getAll now keys).counters =
      { s.counters with
        gets := s.counters.gets + UInt64.ofNat keys.length
        keys := s.counters.keys - gone
        expired := s.counters.expired + gone } := by
  rw [getAll_eq_removeAll, counters_removeAll]
  simp only [Counters.plus, Counters.times, Counters.zero, Removal.get, UInt64.sub_eq_add_neg,
    UInt64.mul_neg, UInt64.mul_one, UInt64.mul_zero, UInt64.add_zero]

lemma counters_deleteAll (keys : List Bytes) :
    (s.deleteAll keys).counters =
      { s.counters with
        dels := s.counters.dels + UInt64.ofNat keys.length
        keys := s.counters.keys - UInt64.ofNat (s.takenAmong .delete keys).card } := by
  rw [deleteAll_eq_removeAll, counters_removeAll]
  simp only [Counters.plus, Counters.times, Counters.zero, Removal.delete, UInt64.sub_eq_add_neg,
    UInt64.mul_neg, UInt64.mul_one, UInt64.mul_zero, UInt64.add_zero]

end Store

end ExpiringStore
