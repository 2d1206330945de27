import ExpiringStore.Proofs.Store.Books
import ExpiringStore.Proofs.Store.Several

/-!
# A sweep does at once what reads do one by one

A sweep filters all shards and moves the counters once; a read looks at one key and moves them by
one.  Over all the keys that a store holds, in any order, the reads leave the store that one sweep
leaves, but for having been counted as reads (`sweep_agrees_with_reads`).

The entries of all shards are listed by `Store.entries`, in which a sweep is a filter.  That nothing
is missed by the reads is because every entry is where its key belongs (`Placed`); and that the
numbers agree is because the number of entries taken away is the same for both, however they are
taken away (`size_removeAll`).  The counter `keys` is the number of entries held, as a word, in
every store that operations lead to (`counted_run`).
-/

namespace ExpiringStore

lemma Entry.expired_eq_any_deadline {α : Type u} (now : Instant) (e : Entry α) :
    e.expired now = e.deadline.any fun deadline => deadline ≤ now := by
  rw [expired]
  cases e.deadline <;> rfl

namespace Store

variable {α : Type u}

/-! ## The entries of all shards -/

/-- All entries under their keys, shard by shard. -/
def entries (s : Store α) : List (Bytes × Entry α) := s.shards.toList.flatMap (·.toList)

lemma map_fst_entries (s : Store α) : s.entries.map Prod.fst = s.heldKeys := by
  simp only [entries, heldKeys, List.map_flatMap, Std.ExtTreeMap.map_fst_toList_eq_keys]

lemma length_entries (s : Store α) : s.entries.length = s.size := by
  rw [← length_heldKeys, ← map_fst_entries, List.length_map]

/-- A sweep is a filter. -/
lemma entries_live (s : Store α) (now : Instant) :
    (s.live now).entries = s.entries.filter fun r => !r.2.expired now := by
  have hshards : (s.live now).shards.toList =
      s.shards.toList.map (·.filter fun _ e => !e.expired now) :=
    Vector.toList_map
  rw [entries, entries, hshards, List.flatMap_map, List.filter_flatMap]
  simp only [Std.ExtTreeMap.toList_filter]

/-- **The entries listed are those found.** -/
lemma Placed.mem_entries_iff {s : Store α} (h : s.Placed) {key : Bytes} {e : Entry α} :
    (key, e) ∈ s.entries ↔ s.find? key = some e := by
  rw [entries, List.mem_flatMap]
  constructor
  · rintro ⟨shard, hshard, hentry⟩
    obtain ⟨i, hi, rfl⟩ := List.getElem_of_mem hshard
    rw [Vector.length_toList] at hi
    rw [Vector.getElem_toList, Std.ExtTreeMap.mem_toList_iff_getElem?_eq_some] at hentry
    have hkey : key ∈ s.shards[i] := by
      rw [Std.ExtTreeMap.mem_iff_isSome_getElem?, hentry]
      rfl
    have hplace : s.placement key = ⟨i, hi⟩ := h ⟨i, hi⟩ key hkey
    simp only [find?, shard, hplace]
    exact hentry
  · intro hfind
    refine ⟨s.shard key, Vector.mem_toList_iff.2 (Vector.getElem_mem _), ?_⟩
    exact Std.ExtTreeMap.mem_toList_iff_getElem?_eq_some.2 hfind

/-- What a sweep takes away are the expired entries. -/
lemma size_sub_size_live (s : Store α) (now : Instant) :
    s.size - (s.live now).size = s.entries.countP fun r => r.2.expired now := by
  have hleft : (s.live now).size = s.entries.countP fun r => !r.2.expired now := by
    rw [← length_entries, entries_live, List.countP_eq_length_filter]
  have hall := List.length_eq_countP_add_countP (fun r => r.2.expired now) (l := s.entries)
  simp only [length_entries, ← Bool.not_eq_true', Bool.decide_eq_true, Bool.not_eq_true]
    at hall hleft
  omega

/-- What a sweep leaves are the entries of the live keys. -/
lemma Placed.size_live {s : Store α} (h : s.Placed) (now : Instant) :
    (s.live now).size = s.heldKeys.countP (s.contains now) := by
  rw [← length_entries, entries_live, ← List.countP_eq_length_filter, ← map_fst_entries,
    List.countP_map]
  refine List.countP_congr fun r hr => ?_
  have hfind : s.find? r.1 = some r.2 := h.mem_entries_iff.1 hr
  simp only [Function.comp_apply, contains, hfind]

/-! ## The counter of entries -/

/-- `keys` is the number of entries held, as a word. -/
def Counted (s : Store α) : Prop := s.counters.keys = UInt64.ofNat s.size

namespace Counted

variable {s : Store α}

/-- An operation that counts one entry less for each that it takes away. -/
lemma touch_removal (h : s.Counted) {r : Removal α} (hcalled : r.called.keys = 0)
    (htaken : r.taken.keys = -1) (key : Bytes) : (s.touch key r.touch).Counted := by
  have hsize := s.size_touch_removal r key
  have hkeys : (s.touch key r.touch).counters.keys = s.counters.keys + (r.called.keys +
      UInt64.ofNat ((s.find? key).any r.takes).toNat * r.taken.keys) := rfl
  rw [Counted, hkeys, h, hcalled, htaken, ← hsize, UInt64.ofNat_add, UInt64.zero_add,
    UInt64.mul_neg, UInt64.mul_one, ← UInt64.sub_eq_add_neg, UInt64.add_sub_cancel]

lemma removeExpired (h : s.Counted) (now : Instant) : (s.removeExpired now).2.Counted := by
  have hle := s.size_live_le now
  show s.counters.keys - UInt64.ofNat (s.size - (s.live now).size) =
    UInt64.ofNat (s.live now).size
  rw [h, ← UInt64.ofNat_sub (Nat.sub_le _ _), Nat.sub_sub_self hle]

lemma set (h : s.Counted) (now : Instant) (key : Bytes) (value : α) (expiry : Option Expiry) :
    (s.set now key value expiry).2.Counted := by
  have hsize : (s.set now key value expiry).2.size =
      if (s.find? key).isSome then s.size else s.size + 1 := s.size_insertEntry key _
  have hkeys : (s.set now key value expiry).2.counters.keys =
      if (s.find? key).isNone then s.counters.keys + 1 else s.counters.keys := rfl
  rw [Counted, hsize, hkeys, h]
  cases s.find? key with
  | none => exact (UInt64.ofNat_add _ _).symm
  | some e => rfl

lemma step (h : s.Counted) (now : Instant) (operation : Step α) :
    (s.step now operation).2.Counted := by
  cases operation with
  | set key value expiry => exact h.set now key value expiry
  | get key =>
    show (s.get now key).2.Counted
    rw [get_snd, ← Removal.touch_get]
    exact h.touch_removal rfl rfl key
  | delete key =>
    show (s.delete key).2.Counted
    rw [delete_snd, ← Removal.touch_delete]
    exact h.touch_removal rfl rfl key
  | contains key => exact h
  | length => exact h
  | isEmpty => exact h
  | removeExpired => exact h.removeExpired now

end Counted

/-- **The counter follows every run.** -/
lemma counted_run (placement : Placement) (usual : Expiry) (steps : List (Instant × Step α)) :
    ((empty placement usual).run steps).2.Counted := by
  induction steps using List.reverseRecOn with
  | nil => exact congrArg UInt64.ofNat (size_empty placement usual).symm
  | append_singleton steps last ih =>
    rw [run_append]
    exact ih.step last.1 last.2

/-! ## Reads of all keys -/

lemma run_gets (s : Store α) (now : Instant) (keys : List Bytes) :
    (s.run (keys.map fun key => (now, .get key))).2 = s.getAll now keys := by
  induction keys generalizing s with
  | nil => rfl
  | cons key keys ih => exact ih (s.get now key).2

lemma size_eq_of_shards_eq {s t : Store α} (h : s.shards = t.shards) : s.size = t.size := by
  rw [size, h, size]

lemma getElem?_shards_live (s : Store α) (now : Instant) (i : Fin shardCount) (key : Bytes) :
    ((s.live now).shards.get i)[key]? =
      ((s.shards.get i)[key]?).filter fun e => !e.expired now := by
  have hshard : (s.live now).shards.get i = (s.shards.get i).filter fun _ e => !e.expired now :=
    Vector.getElem_map ..
  rw [hshard]
  simp

/-- Reads of all the keys that are held leave in every shard what a sweep leaves there. -/
lemma Placed.shards_getAll {s : Store α} (h : s.Placed) (now : Instant) {keys : List Bytes}
    (hkeys : keys.Perm s.heldKeys) : (s.getAll now keys).shards = (s.live now).shards := by
  rw [getAll_eq_touchAll, ← Removal.touch_get]
  refine Vector.ext fun i hi => Std.ExtTreeMap.ext_getElem? fun {name} => ?_
  have hread := s.getElem?_shards_removeAll (.get now) keys ⟨i, hi⟩ name
  have hswept := s.getElem?_shards_live now ⟨i, hi⟩ name
  refine hread.trans (Eq.trans ?_ hswept.symm)
  split_ifs with hname
  · rfl
  · -- a key that was not read has nothing in this shard
    have hnone : (s.shards.get ⟨i, hi⟩)[name]? = none := by
      by_contra hsome
      have hmem : name ∈ s.shards.get ⟨i, hi⟩ := by
        rw [Std.ExtTreeMap.mem_iff_isSome_getElem?, Option.isSome_iff_ne_none]
        exact hsome
      have hplace : s.placement name = ⟨i, hi⟩ := h ⟨i, hi⟩ name hmem
      refine hname ⟨hplace.symm, hkeys.mem_iff.2 (h.mem_heldKeys_iff.2 ?_)⟩
      simp only [find?, shard, hplace]
      exact Option.isSome_iff_ne_none.2 hsome
    rw [hnone, Option.filter_none]

/-- **Reads of all the keys that are held leave what a sweep leaves**, and are counted. -/
lemma Placed.getAll_eq_removeExpired {s : Store α} (h : s.Placed) (now : Instant)
    {keys : List Bytes} (hkeys : keys.Perm s.heldKeys) :
    s.getAll now keys =
      (s.removeExpired now).2.count fun c => { c with gets := c.gets + UInt64.ofNat s.size } := by
  have hshards := h.shards_getAll now hkeys
  have hsize := size_eq_of_shards_eq hshards
  have htaken := s.size_removeAll (.get now) keys
  rw [← getAll_eq_removeAll] at htaken
  have hcount : keys.length = s.size := hkeys.length_eq.trans s.length_heldKeys
  have hcard : (s.takenAmong (.get now) keys).card = s.size - (s.live now).size := by omega
  refine eq_of_shards ?_ (s.defaultExpiry_getAll now keys) ?_ fun i key => ?_
  · rw [getAll_eq_touchAll, placement_touchAll]
    rfl
  · rw [s.counters_getAll, hcount, hcard]
    rfl
  · rw [hshards]
    rfl

/-! ## The agreement -/

/-- What a sweep at `now` does to a store, and what reads of all its keys do instead. -/
structure SweepAgrees (s : Store α) (now : Instant) : Prop where
  /-- The entries listed are those found, each once. -/
  entries_iff : ∀ key e, (key, e) ∈ s.entries ↔ s.find? key = some e
  nodup_entries : (s.entries.map Prod.fst).Nodup
  /-- The answer is the number of entries whose deadline is not after `now`. -/
  answer_eq : (s.removeExpired now).1 =
    UInt64.ofNat (s.entries.countP fun r => r.2.deadline.any fun deadline => deadline ≤ now)
  /-- The word is not too short for it. -/
  answer_exact : s.size < 2 ^ 64 → (s.removeExpired now).1.toNat =
    s.entries.countP fun r => r.2.deadline.any fun deadline => deadline ≤ now
  /-- All other entries are left as they were. -/
  entries_eq : (s.removeExpired now).2.entries =
    s.entries.filter fun r => !r.2.deadline.any fun deadline => deadline ≤ now
  find?_eq : ∀ key, (s.removeExpired now).2.find? key =
    (s.find? key).filter fun e => !e.deadline.any fun deadline => deadline ≤ now
  /-- The number of entries is that of the live keys. -/
  length_eq : (s.removeExpired now).2.length = UInt64.ofNat (s.heldKeys.countP (s.contains now))
  length_exact : s.size < 2 ^ 64 →
    (s.removeExpired now).2.length.toNat = s.heldKeys.countP (s.contains now)
  /-- A second sweep finds nothing and changes nothing. -/
  again : (s.removeExpired now).2.removeExpired now = (0, (s.removeExpired now).2)
  /-- Reads of all keys that are held, in any order, leave the same store but for the number of
  reads. -/
  reads_eq : ∀ keys : List Bytes, keys.Perm s.heldKeys →
    (s.run (keys.map fun key => (now, .get key))).2 =
      (s.removeExpired now).2.count fun c => { c with gets := c.gets + UInt64.ofNat s.size }

/-- A sweep of a store without expired entries. -/
lemma removeExpired_of_live_eq {s : Store α} {now : Instant} (h : s.live now = s) :
    s.removeExpired now = (0, s) := by
  have hzero : UInt64.ofNat (s.size - s.size) = 0 := by
    rw [Nat.sub_self]
    rfl
  simp only [removeExpired, h, hzero, UInt64.sub_zero, UInt64.add_zero]
  rfl

lemma live_live (s : Store α) (now : Instant) : (s.live now).live now = s.live now := by
  refine eq_of_shards rfl rfl rfl fun i key => ?_
  rw [getElem?_shards_live, getElem?_shards_live, Option.filter_filter]
  simp only [Bool.and_self]

/-- A second sweep at the same time finds nothing. -/
lemma removeExpired_removeExpired (s : Store α) (now : Instant) :
    (s.removeExpired now).2.removeExpired now = (0, (s.removeExpired now).2) := by
  have hcount (f : Counters → Counters) : ((s.live now).count f).live now =
      ((s.live now).live now).count f := rfl
  refine removeExpired_of_live_eq ?_
  rw [removeExpired, hcount, live_live]

/-- **Active and lazy expiry agree.**  Whatever operations have led to a store, a sweep takes away
the entries whose deadline has come and no others, and answers how many there were; a second one at
the same time does nothing; and reads of all the keys held, each read once and in any order, leave
the store as the sweep does. -/
theorem sweep_agrees_with_reads (placement : Placement) (usual : Expiry)
    (steps : List (Instant × Step α)) (now : Instant) :
    SweepAgrees ((empty placement usual).run steps).2 now := by
  have hplaced := placed_run placement usual steps
  have hcounted := counted_run placement usual steps
  -- from here on any store will do that has its entries in their places and their number right
  generalize ((empty placement usual).run steps).2 = s at hplaced hcounted ⊢
  have hanswer : (s.removeExpired now).1 =
      UInt64.ofNat (s.entries.countP fun r => r.2.expired now) :=
    congrArg UInt64.ofNat (s.size_sub_size_live now)
  have hgone : s.entries.countP (fun r => r.2.expired now) ≤ s.size :=
    s.length_entries ▸ List.countP_le_length
  have hlength : (s.removeExpired now).2.length =
      UInt64.ofNat (s.heldKeys.countP (s.contains now)) := by
    rw [← hplaced.size_live]
    exact hcounted.removeExpired now
  have hleft : s.heldKeys.countP (s.contains now) ≤ s.size :=
    s.length_heldKeys ▸ List.countP_le_length
  simp only [Entry.expired_eq_any_deadline] at hanswer hgone
  exact {
    entries_iff _ _ := hplaced.mem_entries_iff
    nodup_entries := s.map_fst_entries ▸ hplaced.nodup_heldKeys
    answer_eq := hanswer
    answer_exact hsize := by rw [hanswer, UInt64.toNat_ofNat_of_lt' (hgone.trans_lt hsize)]
    entries_eq := by
      simp only [← Entry.expired_eq_any_deadline]
      exact s.entries_live now
    find?_eq := by
      simp only [← Entry.expired_eq_any_deadline]
      exact s.find?_removeExpired now
    length_eq := hlength
    length_exact hsize := by rw [hlength, UInt64.toNat_ofNat_of_lt' (hleft.trans_lt hsize)]
    again := s.removeExpired_removeExpired now
    reads_eq keys hkeys := by
      rw [run_gets]
      exact hplaced.getAll_eq_removeExpired now hkeys }

/-- Of three entries one is at its deadline, one is a second before it, and one never expires. -/
example :
    let second (n : UInt64) := Instant.zero.later (.ofSeconds n)
    let seconds (n : UInt64) : Option Expiry := some (.after (.ofSeconds n))
    let steps : List (Instant × Step Nat) := [(second 0, .set [0x61] 1 (seconds 5)),
      (second 0, .set [0x62] 2 (seconds 6)), (second 0, .set [0x63] 3 none)]
    let s := ((empty .mixing .never).run steps).2
    (s.removeExpired (second 5)).1 = 1 ∧ (s.removeExpired (second 5)).2.counters = ⟨2, 0, 3, 0, 1⟩ ∧
      (s.getAll (second 5) [[0x63], [0x61], [0x62]]).counters = ⟨2, 3, 3, 0, 1⟩ := by
  decide +kernel

end Store

end ExpiringStore
