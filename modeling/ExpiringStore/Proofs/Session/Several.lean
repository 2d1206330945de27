import ExpiringStore.Proofs.Session.Effects
import ExpiringStore.Proofs.Store.Several
import Mathlib.Data.List.FinRange

/-!
# Statements that name several keys

`GET` and `DEL` go from key to key, and each key may change the store that the next one meets.  What
comes of it can be said of the list of keys as a whole: a `GET` answers with what was live before
any key was read, and takes away what has expired under the keys listed; a `DEL` takes away what is
held under them.  A key that is listed more than once is counted as a call each time, and its entry
is taken away, and counted, once.

The names that the keys have in the store are their encodings, which are different for different
keys; so the number of names under which something is taken away is a number of keys.
-/

namespace ExpiringStore

namespace Stores

/-- The names that keys have in the store. -/
def names (keys : List String) : List Bytes := keys.map Utf8.encode

/-- The names among those of the keys under which the entry has expired. -/
def expiredAmong (s : Stores) (keys : List String) : Finset Bytes :=
  (names keys).toFinset.filter fun name => (s.data.find? name).any (·.expired s.now) = true

/-- The names among those of the keys under which an entry is held, expired or not. -/
def heldAmong (s : Stores) (keys : List String) : Finset Bytes :=
  (names keys).toFinset.filter fun name => (s.data.find? name).isSome = true

lemma takenAmong_get (s : Stores) (keys : List String) :
    s.data.takenAmong (.get s.now) (names keys) = s.expiredAmong keys := rfl

lemma takenAmong_delete (s : Stores) (keys : List String) :
    s.data.takenAmong .delete (names keys) = s.heldAmong keys := by
  refine Finset.filter_congr fun name _ => ?_
  cases s.data.find? name <;> simp [Store.Removal.delete]

end Stores

namespace Session

/-- What a `GET` of these keys answers in the session `s`, and the session `t` that it leaves. -/
structure ReadsTogether (s : Session) (keys : List String) (slots : List (Option Bytes))
    (t : Session) : Prop where
  length_eq : slots.length = keys.length
  /-- Each slot has the value that was live before the statement. -/
  slot_eq : ∀ (i : Nat) (key : String), keys[i]? = some key → slots[i]? = some (s.stores.value key)
  repeated : ∀ i j : Nat, keys[i]? = keys[j]? → slots[i]? = slots[j]?
  /-- Under the keys listed what has expired is gone, and nothing else is changed. -/
  find?_eq : ∀ name, t.stores.data.find? name =
    if name ∈ Stores.names keys then
      (s.stores.data.find? name).filter fun e => !e.expired s.stores.now
    else s.stores.data.find? name
  size_eq : t.stores.data.size + (s.stores.expiredAmong keys).card = s.stores.data.size
  /-- Each entry that is gone is counted once. -/
  counters_eq : t.stores.data.counters =
    { s.stores.data.counters with
      gets := s.stores.data.counters.gets + UInt64.ofNat keys.length
      keys := s.stores.data.counters.keys - UInt64.ofNat (s.stores.expiredAmong keys).card
      expired := s.stores.data.counters.expired + UInt64.ofNat (s.stores.expiredAmong keys).card }
  /-- Nothing but the data is changed. -/
  rest_eq : t = s.withData t.stores.data

/-- What a `DEL` of these keys leaves of the session `s`. -/
structure RemovesTogether (s : Session) (keys : List String) (t : Session) : Prop where
  /-- Under the keys listed nothing is held, and nothing else is changed. -/
  find?_eq : ∀ name, t.stores.data.find? name =
    if name ∈ Stores.names keys then none else s.stores.data.find? name
  size_eq : t.stores.data.size + (s.stores.heldAmong keys).card = s.stores.data.size
  /-- Each entry that is gone is counted once, expired or not. -/
  counters_eq : t.stores.data.counters =
    { s.stores.data.counters with
      dels := s.stores.data.counters.dels + UInt64.ofNat keys.length
      keys := s.stores.data.counters.keys - UInt64.ofNat (s.stores.heldAmong keys).card }
  /-- Nothing but the data is changed. -/
  rest_eq : t = s.withData t.stores.data

lemma readsTogether (s : Session) (keys : List String) :
    ReadsTogether s keys (keys.map s.stores.value)
      (s.withData (s.stores.data.getAll s.stores.now (Stores.names keys))) := by
  refine ⟨List.length_map _, fun i key hkey => ?_, fun i j hsame => ?_, fun name => ?_, ?_, ?_, rfl⟩
  · rw [List.getElem?_map, hkey, Option.map_some]
  · rw [List.getElem?_map, List.getElem?_map, hsame]
  · rw [data_withData, Store.getAll_eq_removeAll]
    exact s.stores.data.find?_removeAll (.get s.stores.now) _ name
  · rw [data_withData, Store.getAll_eq_removeAll, ← Stores.takenAmong_get]
    exact s.stores.data.size_removeAll (.get s.stores.now) _
  · rw [data_withData, Store.counters_getAll, Stores.takenAmong_get, Stores.names, List.length_map]

lemma removesTogether (s : Session) (keys : List String) :
    RemovesTogether s keys (s.withData (s.stores.data.deleteAll (Stores.names keys))) := by
  refine ⟨fun name => ?_, ?_, ?_, rfl⟩
  · rw [data_withData, Store.deleteAll_eq_removeAll, Store.find?_removeAll]
    cases s.stores.data.find? name <;> rfl
  · rw [data_withData, Store.deleteAll_eq_removeAll, ← Stores.takenAmong_delete]
    exact s.stores.data.size_removeAll .delete _
  · rw [data_withData, Store.counters_deleteAll, Stores.takenAmong_delete, Stores.names,
      List.length_map]

/-- A `GET` of the same keys in another order leaves the same session. -/
lemma execute_get_perm (s : Session) {keys others : List String} (h : others.Perm keys) :
    database.execute s (.get others) =
      (.values (others.map s.stores.value),
        s.withData (s.stores.data.getAll s.stores.now (Stores.names keys))) := by
  have hstore : s.stores.data.getAll s.stores.now (Stores.names others) =
      s.stores.data.getAll s.stores.now (Stores.names keys) := by
    rw [Store.getAll_eq_touchAll, Store.getAll_eq_touchAll]
    exact s.stores.data.touchAll_perm (h.map Utf8.encode) _
  rw [execute_get, ← hstore]
  rfl

/-- **A statement acts on its keys as a whole.**  In any session and over any store, a `GET` answers
with one slot for each key and leaves what `ReadsTogether` says; the same keys in another order have
their slots in that order, and leave the same session.  A `DEL` leaves what `RemovesTogether` says;
and whatever the order of the keys and however often each is listed, the same entries are left. -/
theorem keys_act_as_a_whole (s : Session) (keys : List String) :
    (∃ slots t, database.execute s (.get keys) = (.values slots, t) ∧
      ReadsTogether s keys slots t ∧
      ∀ order : Equiv.Perm (Fin keys.length), ∃ moved,
        database.execute s (.get (List.ofFn fun i => keys[order i])) = (.values moved, t) ∧
        moved.length = keys.length ∧
        ∀ i : Fin keys.length, moved[i.val]? = slots[(order i).val]?) ∧
    ∃ t, database.execute s (.delete keys) = (.success, t) ∧ RemovesTogether s keys t ∧
      ∀ others : List String, (∀ key, key ∈ others ↔ key ∈ keys) →
        (database.execute s (.delete others)).2.stores.data.shards = t.stores.data.shards := by
  refine ⟨⟨_, _, execute_get s keys, s.readsTogether keys, fun order => ?_⟩, _,
    execute_delete s keys, s.removesTogether keys, fun others hothers => ?_⟩
  · have hperm : (List.ofFn fun i => keys[order i]).Perm keys := by
      have hmoved := order.ofFn_comp_perm keys.get
      rwa [List.ofFn_get] at hmoved
    refine ⟨_, s.execute_get_perm hperm, ?_, fun i => ?_⟩
    · rw [List.length_map, List.length_ofFn]
    · have hkey : (List.ofFn fun i => keys[order i])[i]? = some keys[order i] := by simp
      have hslot : keys[order i]? = some keys[order i] := List.getElem?_eq_getElem (order i).isLt
      have hmoved : ((List.ofFn fun i => keys[order i]).map s.stores.value)[i]? =
          some (s.stores.value keys[order i]) :=
        (List.getElem?_map ..).trans (congrArg (Option.map s.stores.value) hkey)
      exact hmoved.trans ((s.readsTogether keys).slot_eq _ _ hslot).symm
  · have hnames : ∀ name, name ∈ Stores.names others ↔ name ∈ Stores.names keys := by
      intro name
      simp only [Stores.names, List.mem_map, hothers]
    rw [execute_delete, data_withData, data_withData, Store.deleteAll_eq_removeAll,
      Store.deleteAll_eq_removeAll]
    exact s.stores.data.shards_removeAll_congr .delete hnames

/-- A key that has expired is read twice, and is counted as expired once; one that is held is
removed twice, and is counted as removed once. -/
example :
    let fresh : Session := ⟨.empty .mixing .never .never .zero, none⟩
    let written :=
      (database.executeAll fresh [.set "a" "1" (some (.ofSeconds 5)), .set "b" "2" none]).2
    let later := { written with stores := written.stores.elapse (.ofSeconds 5) }
    let (response, read) := database.execute later (.get ["a", "b", "a"])
    response = .values [none, some (Utf8.encode "2"), none] ∧
      read.stores.data.counters = ⟨1, 3, 2, 0, 1⟩ ∧
      (database.execute read (.delete ["b", "b"])).2.stores.data.counters = ⟨0, 3, 2, 2, 1⟩ := by
  decide +kernel

end Session

end ExpiringStore
