import ExpiringStore.Proofs.Store.Visible
import ExpiringStore.Proofs.Text.Utf8
import ExpiringStore.Session
import Mathlib.Data.List.Basic

/-!
# What a statement does in a session

There is one access level, and it allows everything; so no session is ever refused anything, and
each statement comes down to what it does to the store of data.  The equations below say so with
the operations of the store, and `visible_execute` says what can be read afterwards.
-/

namespace ExpiringStore

/-- What a read of `key` at `t` finds after the statement was run at `now`, if it would have found
`before` otherwise. -/
def Statement.leaves (expiry : Expiry) (now t : Instant) (key : String) (before : Option String) :
    Statement → Option String
  | .set written value ttl =>
    if written = key then
      if ((ttl.map .after).getD expiry).Reached now t then none else some value
    else before
  | .delete keys => if key ∈ keys then none else before
  | .get _ => before
  | .auth .. => before

namespace Session

lemma permits_eq_true (s : Session) (operation : Operation) : s.permits operation = true := by
  rw [permits]
  cases s.identity with
  | none => rfl
  | some identity =>
    cases h : identity.access
    rfl

@[simp] lemma data_withData (s : Session) (data : Store Bytes) :
    (s.withData data).stores.data = data := rfl

@[simp] lemma now_withData (s : Session) (data : Store Bytes) :
    (s.withData data).stores.now = s.stores.now := rfl

lemma execute_set (s : Session) (key value : String) (ttl : Option Duration) :
    database.execute s (.set key value ttl) =
      (.success, s.withData (s.stores.data.set s.stores.now (Utf8.encode key) (Utf8.encode value)
        (ttl.map .after)).2) := by
  simp [Database.execute, database, set, permits_eq_true, Database.respond]

lemma getAll_eq (s : Session) (found : List (Option Bytes)) (keys : List String) :
    database.getAll s found keys =
      (.ok (found.reverse ++ keys.map fun key =>
          s.stores.data.visible s.stores.now (Utf8.encode key)),
        s.withData (s.stores.data.getAll s.stores.now (keys.map Utf8.encode))) := by
  induction keys generalizing s found with
  | nil => simp [Database.getAll, Store.getAll, withData]
  | cons key keys ih =>
    have hget : database.get s key =
        (.ok (s.stores.data.visible s.stores.now (Utf8.encode key)),
          s.withData (s.stores.data.get s.stores.now (Utf8.encode key)).2) := by
      simp [database, get, permits_eq_true, Store.get_eq_visible]
    simp only [Database.getAll, hget, ih, data_withData, now_withData]
    -- no key before it has changed what is read now
    simp only [Store.visible_get _ Instant.le_rfl, List.reverse_cons, List.append_assoc,
      List.cons_append, List.nil_append, List.map_cons]
    rfl

lemma execute_get (s : Session) (keys : List String) :
    database.execute s (.get keys) =
      (.values (keys.map fun key => s.stores.data.visible s.stores.now (Utf8.encode key)),
        s.withData (s.stores.data.getAll s.stores.now (keys.map Utf8.encode))) := by
  rw [Database.execute, getAll_eq]
  rfl

lemma deleteAll_eq (s : Session) (keys : List String) :
    database.deleteAll s keys =
      (.ok (), s.withData (s.stores.data.deleteAll (keys.map Utf8.encode))) := by
  induction keys generalizing s with
  | nil => rfl
  | cons key keys ih =>
    have hdelete : database.delete s key =
        (.ok (s.stores.data.delete (Utf8.encode key)).1,
          s.withData (s.stores.data.delete (Utf8.encode key)).2) := by
      simp [database, delete, permits_eq_true]
    simp only [Database.deleteAll, hdelete, ih]
    rfl

lemma execute_delete (s : Session) (keys : List String) :
    database.execute s (.delete keys) =
      (.success, s.withData (s.stores.data.deleteAll (keys.map Utf8.encode))) := by
  rw [Database.execute, deleteAll_eq]
  rfl

/-- Checking a password concerns neither the data nor the clock. -/
lemma execute_auth (s : Session) (username password : String) :
    (database.execute s (.auth username password)).2.stores.data = s.stores.data ∧
      (database.execute s (.auth username password)).2.stores.now = s.stores.now := by
  simp only [Database.execute, database, authenticate]
  split
  · exact ⟨rfl, rfl⟩
  · split <;> exact ⟨rfl, rfl⟩

lemma now_execute (s : Session) (statement : Statement) :
    (database.execute s statement).2.stores.now = s.stores.now := by
  cases statement with
  | set key value ttl => rw [execute_set, now_withData]
  | get keys => rw [execute_get, now_withData]
  | delete keys => rw [execute_delete, now_withData]
  | auth username password => exact (execute_auth s username password).2

lemma defaultExpiry_execute (s : Session) (statement : Statement) :
    (database.execute s statement).2.stores.data.defaultExpiry = s.stores.data.defaultExpiry := by
  cases statement with
  | set key value ttl => rw [execute_set, data_withData, Store.defaultExpiry_set]
  | get keys => rw [execute_get, data_withData, Store.defaultExpiry_getAll]
  | delete keys => rw [execute_delete, data_withData, Store.defaultExpiry_deleteAll]
  | auth username password => rw [(execute_auth s username password).1]

/-- **What can be read after a statement.** -/
theorem visible_execute (s : Session) (statement : Statement) {t : Instant}
    (h : s.stores.now ≤ t) (key : String) {before : Option String}
    (hbefore : s.stores.data.visible t (Utf8.encode key) = before.map Utf8.encode) :
    (database.execute s statement).2.stores.data.visible t (Utf8.encode key) =
      (statement.leaves s.stores.data.defaultExpiry s.stores.now t key before).map Utf8.encode := by
  cases statement with
  | set written value ttl =>
    rw [execute_set, data_withData, Store.visible_set, hbefore, Statement.leaves]
    by_cases hkey : written = key
    · simp only [hkey, if_true]
      split <;> rfl
    · have hbytes : Utf8.encode key ≠ Utf8.encode written := fun he =>
        hkey (Utf8.encode_injective he).symm
      rw [if_neg hbytes, if_neg hkey]
  | get keys =>
    rw [execute_get, data_withData, Store.visible_getAll _ h, hbefore, Statement.leaves]
  | delete keys =>
    rw [execute_delete, data_withData, Store.visible_deleteAll, hbefore, Statement.leaves]
    simp only [List.mem_map_of_injective Utf8.encode_injective]
    split <;> rfl
  | auth username password =>
    rw [(execute_auth s username password).1, hbefore, Statement.leaves]

end Session

end ExpiringStore
