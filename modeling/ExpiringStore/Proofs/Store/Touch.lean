import ExpiringStore.Proofs.Store.Visible

/-!
# Operations under different keys commute

A write, a read and a removal have in common that they look at what is held under one key, leave
something else there, and add to the counters.  `Store.Touch` is what such an operation does, and
`Store.touch` does it.

Touches of different keys commute (`touch_comm`, `touchAll_comm`), and not only as far as reads can
tell: the stores are equal.  Two keys may belong to the same shard, and then each touch changes the
shard that the other one reads; so shards are compared key by key.  The counters are words, and
adding words commutes whether or not it overflows, one entry less being the addition of `-1`.
-/

namespace ExpiringStore

/-- Each counter is added to its like. -/
def Counters.plus (a b : Counters) : Counters :=
  ⟨a.keys + b.keys, a.gets + b.gets, a.sets + b.sets, a.dels + b.dels, a.expired + b.expired⟩

lemma Counters.plus_right_comm (a b c : Counters) : (a.plus b).plus c = (a.plus c).plus b := by
  simp only [plus, UInt64.add_assoc, UInt64.add_comm b.keys, UInt64.add_comm b.gets,
    UInt64.add_comm b.sets, UInt64.add_comm b.dels, UInt64.add_comm b.expired]

namespace Store

variable {α : Type u}

/-! ## What is held under one key -/

/-- The store with something else, or nothing, held under a key. -/
def put (s : Store α) (key : Bytes) (held : Option (Entry α)) : Store α :=
  s.setShard key ((s.shard key).alter key fun _ => held)

/-- Stores are equal if every shard holds the same under every key. -/
lemma eq_of_shards {s t : Store α} (hplacement : s.placement = t.placement)
    (hexpiry : s.defaultExpiry = t.defaultExpiry) (hcounters : s.counters = t.counters)
    (hshards : ∀ (i : Fin shardCount) (key : Bytes),
      (s.shards.get i)[key]? = (t.shards.get i)[key]?) :
    s = t := by
  obtain ⟨placement, expiry, shards, counters⟩ := s
  obtain ⟨placement', expiry', shards', counters'⟩ := t
  have hsame : shards = shards' := by
    refine Vector.ext fun i hi => ?_
    exact Std.ExtTreeMap.ext_getElem? fun {key} => hshards ⟨i, hi⟩ key
  simp only at hplacement hexpiry hcounters
  rw [hplacement, hexpiry, hcounters, hsame]

lemma getElem?_shards_put (s : Store α) (key : Bytes) (held : Option (Entry α))
    (i : Fin shardCount) (other : Bytes) :
    ((s.put key held).shards.get i)[other]? =
      if i = s.placement key ∧ other = key then held else (s.shards.get i)[other]? := by
  have hshard : (s.put key held).shards.get i =
      if (s.placement key).val = i.val then (s.shard key).alter key fun _ => held
      else s.shards.get i :=
    Vector.getElem_set (s.placement key).isLt i.isLt
  rw [hshard]
  by_cases hi : i = s.placement key
  · subst hi
    rw [if_pos rfl, Std.ExtTreeMap.getElem?_alter]
    by_cases hkey : other = key
    · simp [hkey]
    · have hcompare : compare key other ≠ .eq := fun he =>
        hkey (Std.LawfulEqCmp.eq_of_compare he).symm
      have hget : s.shard key = s.shards.get (s.placement key) := rfl
      simp [hkey, hcompare, hget]
  · rw [if_neg fun he => hi (Fin.ext he.symm), if_neg fun h => hi h.1]

/-- A store holds what it holds. -/
lemma put_find? (s : Store α) (key : Bytes) : s.put key (s.find? key) = s := by
  refine eq_of_shards rfl rfl rfl fun i other => ?_
  rw [getElem?_shards_put]
  by_cases h : i = s.placement key ∧ other = key
  · obtain ⟨rfl, rfl⟩ := h
    rw [if_pos ⟨rfl, rfl⟩]
    rfl
  · rw [if_neg h]

lemma put_comm (s : Store α) {key other : Bytes} (h : key ≠ other) (a b : Option (Entry α)) :
    (s.put key a).put other b = (s.put other b).put key a := by
  refine eq_of_shards rfl rfl rfl fun i k => ?_
  have hplacement (k : Bytes) (held : Option (Entry α)) : (s.put k held).placement = s.placement :=
    rfl
  simp only [getElem?_shards_put, hplacement]
  by_cases hkey : k = key
  · subst hkey
    simp only [h, and_false, if_false]
  · simp only [hkey, and_false, if_false]

lemma find?_put (s : Store α) (key other : Bytes) (held : Option (Entry α)) :
    (s.put key held).find? other = if other = key then held else s.find? other := by
  have hfind : (s.put key held).find? other =
      ((s.put key held).shards.get (s.placement other))[other]? :=
    rfl
  rw [hfind, getElem?_shards_put]
  by_cases hkey : other = key
  · subst hkey
    rw [if_pos ⟨rfl, rfl⟩, if_pos rfl]
  · rw [if_neg fun h => hkey h.2, if_neg hkey]
    rfl

lemma insertEntry_eq_put (s : Store α) (key : Bytes) (e : Entry α) :
    s.insertEntry key e = s.put key (some e) := by
  have hshard : (s.shard key).insert key e = (s.shard key).alter key fun _ => some e := by
    refine Std.ExtTreeMap.ext_getElem? fun {k} => ?_
    rw [Std.ExtTreeMap.getElem?_insert, Std.ExtTreeMap.getElem?_alter]
  rw [insertEntry, hshard, put]

lemma eraseEntry_eq_put (s : Store α) (key : Bytes) : s.eraseEntry key = s.put key none := by
  have hshard : (s.shard key).erase key = (s.shard key).alter key fun _ => none := by
    refine Std.ExtTreeMap.ext_getElem? fun {k} => ?_
    rw [Std.ExtTreeMap.getElem?_erase, Std.ExtTreeMap.getElem?_alter]
  rw [eraseEntry, hshard, put]

/-! ## Touches -/

/-- What an operation does under one key. -/
structure Touch (α : Type u) where
  /-- What it leaves there, by the default lifetime of the store and what was held there. -/
  leaves : Expiry → Option (Entry α) → Option (Entry α)
  /-- What it adds to the counters, by what was held there. -/
  adds : Option (Entry α) → Counters

/-- The store after something was done under a key. -/
def touch (s : Store α) (key : Bytes) (t : Touch α) : Store α :=
  (s.put key (t.leaves s.defaultExpiry (s.find? key))).count (·.plus (t.adds (s.find? key)))

namespace Touch

def set (now : Instant) (value : α) (expiry : Option Expiry) : Touch α where
  leaves usual _ := some (.written now value (expiry.getD usual))
  adds held := { Counters.zero with sets := 1, keys := if held.isNone then 1 else 0 }

def get (now : Instant) : Touch α where
  leaves _ held := held.filter fun e => !e.expired now
  adds held :=
    if held.any (·.expired now) then { Counters.zero with gets := 1, keys := -1, expired := 1 }
    else { Counters.zero with gets := 1 }

def delete : Touch α where
  leaves _ _ := none
  adds held := { Counters.zero with dels := 1, keys := if held.isSome then -1 else 0 }

end Touch

lemma set_snd (s : Store α) (now : Instant) (key : Bytes) (value : α) (expiry : Option Expiry) :
    (s.set now key value expiry).2 = s.touch key (.set now value expiry) := by
  rw [set, insertEntry_eq_put]
  cases hfind : s.find? key <;>
    simp [touch, Touch.set, hfind, count, Counters.plus, Counters.zero, put, setShard]

lemma delete_snd (s : Store α) (key : Bytes) : (s.delete key).2 = s.touch key .delete := by
  rw [delete, eraseEntry_eq_put]
  cases hfind : s.find? key with
  | none =>
    have hsame := s.put_find? key
    rw [hfind] at hsame
    simp [touch, Touch.delete, hfind, hsame, count, Counters.plus, Counters.zero]
  | some e =>
    simp [touch, Touch.delete, hfind, count, Counters.plus, Counters.zero, put, setShard,
      UInt64.sub_eq_add_neg]

lemma get_snd (s : Store α) (now : Instant) (key : Bytes) :
    (s.get now key).2 = s.touch key (.get now) := by
  have hsame := s.put_find? key
  rw [get, eraseEntry_eq_put]
  cases hfind : s.find? key with
  | none =>
    rw [hfind] at hsame
    simp [touch, Touch.get, hfind, hsame, count, Counters.plus, Counters.zero]
  | some e =>
    rw [hfind] at hsame
    cases he : e.expired now with
    | false =>
      simp [touch, Touch.get, hfind, he, hsame, count, Counters.plus, Counters.zero,
        Option.filter_some]
    | true =>
      simp [touch, Touch.get, hfind, he, count, Counters.plus, Counters.zero, put, setShard,
        Option.filter_some, UInt64.sub_eq_add_neg]

lemma find?_touch_of_ne (s : Store α) {key other : Bytes} (h : other ≠ key) (t : Touch α) :
    (s.touch key t).find? other = s.find? other := by
  rw [touch, find?_count, find?_put, if_neg h]

/-- **Touches commute** if their keys are different, or if both do the same. -/
theorem touch_comm (s : Store α) {key other : Bytes} {t u : Touch α} (h : key = other → t = u) :
    (s.touch key t).touch other u = (s.touch other u).touch key t := by
  by_cases hkey : key = other
  · rw [h hkey, hkey]
  · have hexpiry (k : Bytes) (v : Touch α) : (s.touch k v).defaultExpiry = s.defaultExpiry := rfl
    have hcount (r : Store α) (f : Counters → Counters) (k : Bytes) (held : Option (Entry α)) :
        (r.count f).put k held = (r.put k held).count f := rfl
    rw [touch, find?_touch_of_ne s (Ne.symm hkey), hexpiry, touch, hcount]
    rw [touch, find?_touch_of_ne s hkey, hexpiry, touch, hcount, put_comm s hkey]
    simp only [count, Counters.plus_right_comm _ (t.adds _)]

/-! ## Several keys -/

/-- The store after the same was done under each key, in order. -/
def touchAll (s : Store α) (keys : List Bytes) (t : Touch α) : Store α :=
  keys.foldl (fun s key => s.touch key t) s

lemma getAll_eq_touchAll (s : Store α) (now : Instant) (keys : List Bytes) :
    s.getAll now keys = s.touchAll keys (.get now) := by
  simp only [getAll, touchAll, get_snd]

lemma deleteAll_eq_touchAll (s : Store α) (keys : List Bytes) :
    s.deleteAll keys = s.touchAll keys .delete := by
  simp only [deleteAll, touchAll, delete_snd]

lemma find?_touchAll_of_not_mem (s : Store α) {keys : List Bytes} {other : Bytes}
    (h : other ∉ keys) (t : Touch α) : (s.touchAll keys t).find? other = s.find? other := by
  induction keys generalizing s with
  | nil => rfl
  | cons key keys ih =>
    rw [List.mem_cons, not_or] at h
    exact (ih (s.touch key t) h.2).trans (s.find?_touch_of_ne h.1 t)

lemma touch_touchAll_comm (s : Store α) {key : Bytes} {keys : List Bytes} {t u : Touch α}
    (h : key ∈ keys → t = u) :
    (s.touch key t).touchAll keys u = (s.touchAll keys u).touch key t := by
  induction keys generalizing s with
  | nil => rfl
  | cons first keys ih =>
    have hfirst : key = first → t = u := fun he => h (List.mem_cons.2 (.inl he))
    have hrest : key ∈ keys → t = u := fun hmem => h (List.mem_cons_of_mem first hmem)
    calc (s.touch key t).touchAll (first :: keys) u
        = ((s.touch key t).touch first u).touchAll keys u := rfl
      _ = ((s.touch first u).touch key t).touchAll keys u := by rw [s.touch_comm hfirst]
      _ = ((s.touch first u).touchAll keys u).touch key t := ih (s.touch first u) hrest

/-- **Operations under several keys commute** with those under several others. -/
theorem touchAll_comm (s : Store α) {keys others : List Bytes} {t u : Touch α}
    (h : ∀ key ∈ keys, key ∈ others → t = u) :
    (s.touchAll keys t).touchAll others u = (s.touchAll others u).touchAll keys t := by
  induction keys generalizing s with
  | nil => rfl
  | cons key keys ih =>
    have hkey : key ∈ others → t = u := h key List.mem_cons_self
    have hrest : ∀ k ∈ keys, k ∈ others → t = u := fun k hk => h k (List.mem_cons_of_mem key hk)
    calc (s.touchAll (key :: keys) t).touchAll others u
        = ((s.touch key t).touchAll keys t).touchAll others u := rfl
      _ = ((s.touch key t).touchAll others u).touchAll keys t := ih (s.touch key t) hrest
      _ = ((s.touchAll others u).touch key t).touchAll keys t := by
        rw [s.touch_touchAll_comm hkey]

end Store

end ExpiringStore
