import ExpiringStore.Access.Account
import ExpiringStore.Database.Basic
import ExpiringStore.Store.Basic

/-!
# Sessions

All sessions work on one store of data and one store of accounts, and read one clock. What a session
has of its own is the user it has become known as: nobody at first, and then whoever it last gave
the right password for. A failed attempt changes nothing.

A session without a user is not restricted; one with a user may do what the user's access level
allows.
-/

namespace ExpiringStore

/-- What all sessions share. -/
structure Stores where
  /-- The data. -/
  data : Store Bytes
  /-- The accounts, under their users' names. -/
  users : Store Account
  /-- What the clock reads. -/
  now : Instant

namespace Stores

/-- Stores without entries. -/
def empty (placement : Placement) (dataExpiry usersExpiry : Expiry) (now : Instant) : Stores :=
  ⟨.empty placement dataExpiry, .empty placement usersExpiry, now⟩

/-- Adds an account, or replaces the one of that name. Accounts do not expire. -/
def register (s : Stores) (username password : String) (access : AccessLevel) : Stores :=
  let account := Account.create username password access
  { s with users := (s.users.set s.now (Utf8.encode username) account (some .never)).2 }

/-- Removes an account and tells whether there was one. -/
def unregister (s : Stores) (username : String) : Bool × Stores :=
  let (removed, users) := s.users.delete (Utf8.encode username)
  (removed, { s with users := users })

/-- Lets time pass. -/
def elapse (s : Stores) (d : Duration) : Stores := { s with now := s.now.later d }

end Stores

/-- Whom a session is known as. -/
structure Identity where
  /-- The user's name. -/
  username : String
  /-- What the user may do. -/
  access : AccessLevel
deriving DecidableEq

/-- One client's view of the stores. -/
structure Session where
  /-- What the session shares with all others. -/
  stores : Stores
  /-- Whom it is known as, if anybody. -/
  identity : Option Identity

namespace Session

/-- Whether an operation is allowed. -/
def permits (s : Session) (operation : Operation) : Bool :=
  match s.identity with
  | none => true
  | some identity => identity.access.permits operation

/-- The session over another store of data. -/
def withData (s : Session) (data : Store Bytes) : Session :=
  { s with stores := { s.stores with data := data } }

/-- Stores a value, for a time if one is given. -/
def set (s : Session) (key : String) (value : Bytes) (ttl : Option Duration) :
    Except AccessDenied Unit × Session :=
  if s.permits .write then
    let (_, data) := s.stores.data.set s.stores.now (Utf8.encode key) value (ttl.map .after)
    (.ok (), s.withData data)
  else (.error ⟨.write⟩, s)

/-- The live value of a key. -/
def get (s : Session) (key : String) : Except AccessDenied (Option Bytes) × Session :=
  if s.permits .read then
    let (value, data) := s.stores.data.get s.stores.now (Utf8.encode key)
    (.ok value, s.withData data)
  else (.error ⟨.read⟩, s)

/-- Removes a key and tells whether an entry was held. -/
def delete (s : Session) (key : String) : Except AccessDenied Bool × Session :=
  if s.permits .delete then
    let (removed, data) := s.stores.data.delete (Utf8.encode key)
    (.ok removed, s.withData data)
  else (.error ⟨.delete⟩, s)

/-- Checks a password, and makes the user known if it is right. -/
def authenticate (s : Session) (username password : String) : Bool × Session :=
  let (account, users) := s.stores.users.get s.stores.now (Utf8.encode username)
  let s := { s with stores := { s.stores with users := users } }
  match account with
  | none => (Account.acceptsStranger username password, s)
  | some account =>
    if account.accepts password then
      (true, { s with identity := some ⟨account.username, account.access⟩ })
    else (false, s)

/-- A session as a database. -/
def database : Database Session := ⟨set, get, delete, authenticate⟩

end Session

end ExpiringStore
