import ExpiringStore.Proofs.Session.Statements
import ExpiringStore.Proofs.Store.Touch

/-!
# What a statement reads, and what it changes

In a session that refuses nothing a statement reads the live values of the keys it names, and the
account of the user it names; it does the same under each of its keys, and reads that account.
`Session.execute_eq` says so of all statements in one equation: the response is
`Statement.response`, and in `Session.after` the stores are `Stores.after` and the session is known
as the owner of the account that the password was right for, if there is one.

Statements that name different keys do not see each other, and it does not matter which of them
comes first (`Stores.after_comm`).
-/

namespace ExpiringStore

/-! ## Names -/

namespace Statement

/-- The keys that a statement names. -/
def keys : Statement → List String
  | .set key _ _ => [key]
  | .get keys => keys
  | .delete keys => keys
  | .auth .. => []

/-- The user that a statement names. -/
def usernames : Statement → List String
  | .auth username _ => [username]
  | _ => []

/-- What a statement does under each of its keys. -/
def touch (now : Instant) : Statement → Store.Touch Bytes
  | .set _ value ttl => .set now (Utf8.encode value) (ttl.map .after)
  | .get _ => .get now
  | .delete _ => .delete
  -- there are no keys
  | .auth .. => .get now

end Statement

namespace Stores

/-- The live value of a key. -/
def value (s : Stores) (key : String) : Option Bytes := s.data.visible s.now (Utf8.encode key)

/-- The live account of a user. -/
def account (s : Stores) (username : String) : Option Account :=
  s.users.visible s.now (Utf8.encode username)

/-- The stores after a statement. -/
def after (s : Stores) (statement : Statement) : Stores where
  data := s.data.touchAll (statement.keys.map Utf8.encode) (statement.touch s.now)
  users := s.users.getAll s.now (statement.usernames.map Utf8.encode)
  now := s.now

end Stores

namespace Statement

/-- The account that the statement gives the right password for. -/
def known (stores : Stores) : Statement → Option Account
  | .auth username password => (stores.account username).filter (·.accepts password)
  | _ => none

/-- The response to a statement. -/
def response (stores : Stores) : Statement → Response
  | .set .. => .success
  | .get keys => .values (keys.map stores.value)
  | .delete _ => .success
  | .auth username password =>
    if (Statement.known stores (.auth username password)).isSome then .authenticated
    else .invalidCredentials

end Statement

/-- Whom a session is known as that has given the right password for an account. -/
def Account.identity (a : Account) : Identity := ⟨a.username, a.access⟩

namespace Session

/-- The session after a statement. -/
def after (s : Session) (statement : Statement) : Session where
  stores := s.stores.after statement
  identity := ((statement.known s.stores).map Account.identity).or s.identity

lemma authenticate_eq (s : Session) (username password : String) :
    s.authenticate username password =
      (((s.stores.account username).filter (·.accepts password)).isSome,
        s.after (.auth username password)) := by
  have hget := Store.get_eq_visible s.stores.users s.stores.now (Utf8.encode username)
  simp only [authenticate, hget, after, Statement.known, Stores.account]
  cases s.stores.users.visible s.stores.now (Utf8.encode username) with
  | none =>
    simp only [Account.acceptsStranger, Bool.and_false, Option.filter_none]
    rfl
  | some account =>
    cases haccepts : account.accepts password with
    | false =>
      simp only [Option.filter_some, haccepts]
      rfl
    | true =>
      simp only [Option.filter_some, haccepts]
      rfl

/-- **What a statement does in a session.** -/
theorem execute_eq (s : Session) (statement : Statement) :
    database.execute s statement = (statement.response s.stores, s.after statement) := by
  cases statement with
  | set key value ttl =>
    rw [execute_set, Store.set_snd]
    rfl
  | get keys =>
    rw [execute_get, Store.getAll_eq_touchAll]
    rfl
  | delete keys =>
    rw [execute_delete, Store.deleteAll_eq_touchAll]
    rfl
  | auth username password =>
    simp only [Database.execute, database, authenticate_eq]
    rfl

end Session

/-! ## Statements that name different keys -/

namespace Stores

variable {a b : Statement}

lemma value_after (s : Stores) (b : Statement) {key : String} (h : key ∉ b.keys) :
    (s.after b).value key = s.value key := by
  have hbytes : Utf8.encode key ∉ b.keys.map Utf8.encode := by
    rwa [List.mem_map_of_injective Utf8.encode_injective]
  rw [value, value, Store.visible, after, Store.find?_touchAll_of_not_mem _ hbytes]
  rfl

lemma account_after (s : Stores) (b : Statement) (username : String) :
    (s.after b).account username = s.account username :=
  s.users.visible_getAll Instant.le_rfl _ _

lemma known_after (s : Stores) (a b : Statement) : a.known (s.after b) = a.known s := by
  cases a with
  | auth username password => rw [Statement.known, account_after, Statement.known]
  | set key value ttl => rfl
  | get keys => rfl
  | delete keys => rfl

lemma response_after (s : Stores) (h : ∀ key ∈ a.keys, key ∉ b.keys) :
    a.response (s.after b) = a.response s := by
  cases a with
  | set key value ttl => rfl
  | get keys =>
    have hvalues : keys.map (s.after b).value = keys.map s.value :=
      List.map_congr_left fun key hkey => s.value_after b (h key hkey)
    rw [Statement.response, Statement.response, hvalues]
  | delete keys => rfl
  | auth username password => rw [Statement.response, Statement.response, known_after]

/-- **The order of two statements that name different keys does not matter.** -/
theorem after_comm (s : Stores) (h : ∀ key ∈ a.keys, key ∉ b.keys) :
    (s.after a).after b = (s.after b).after a := by
  have hkeys : ∀ bytes ∈ a.keys.map Utf8.encode, bytes ∈ b.keys.map Utf8.encode →
      a.touch s.now = b.touch s.now := by
    intro bytes ha hb
    obtain ⟨key, hkey, rfl⟩ := List.mem_map.1 ha
    rw [List.mem_map_of_injective Utf8.encode_injective] at hb
    exact absurd hb (h key hkey)
  -- both may name the same user, but they do the same there
  have husers : ∀ bytes ∈ a.usernames.map Utf8.encode, bytes ∈ b.usernames.map Utf8.encode →
      Store.Touch.get s.now = (Store.Touch.get s.now : Store.Touch Account) := fun _ _ _ => rfl
  simp only [after, Store.getAll_eq_touchAll, s.data.touchAll_comm hkeys,
    s.users.touchAll_comm husers]

end Stores

end ExpiringStore
