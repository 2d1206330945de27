import ExpiringStore.Access.Level
import ExpiringStore.Response
import ExpiringStore.Statement

/-!
# Databases, and running a statement on one

A database is whatever can store, fetch and remove values and recognise users. Each operation takes
a state to an outcome and the next state; data operations may be refused, and the state they leave
then is still the next one.

`Database.execute` runs one statement. A `GET` reads its keys in order up to the first refusal and
then answers with the refusal alone; a `DEL` removes its keys in order up to the first refusal.
-/

namespace ExpiringStore

/-- The operations that statements are made of, over states of type `σ`. -/
structure Database (σ : Type u) where
  /-- Stores a value, for a time if one is given. -/
  set : σ → String → Bytes → Option Duration → Except AccessDenied Unit × σ
  /-- Fetches the live value of a key. -/
  get : σ → String → Except AccessDenied (Option Bytes) × σ
  /-- Removes a key and tells whether anything was there. -/
  delete : σ → String → Except AccessDenied Bool × σ
  /-- Checks a user's password. -/
  authenticate : σ → String → String → Bool × σ

namespace Database

variable {σ : Type u}

/-- Fetches the values of keys in order, up to the first refusal, after values already `found`, the
latest first. -/
def getAll (db : Database σ) (s : σ) (found : List (Option Bytes)) :
    List String → Except AccessDenied (List (Option Bytes)) × σ
  | [] => (.ok found.reverse, s)
  | key :: keys =>
    match db.get s key with
    | (.error denied, s) => (.error denied, s)
    | (.ok value, s) => db.getAll s (value :: found) keys

/-- Removes keys in order, up to the first refusal. -/
def deleteAll (db : Database σ) (s : σ) : List String → Except AccessDenied Unit × σ
  | [] => (.ok (), s)
  | key :: keys =>
    match db.delete s key with
    | (.error denied, s) => (.error denied, s)
    | (.ok _, s) => db.deleteAll s keys

/-- The response to what may have been refused. -/
def respond (f : α → Response) : Except AccessDenied α → Response
  | .ok a => f a
  | .error denied => .error denied.message

/-- Runs one statement. -/
def execute (db : Database σ) (s : σ) : Statement → Response × σ
  | .set key value ttl =>
    let (outcome, s) := db.set s key (Utf8.encode value) ttl
    (respond (fun _ => .success) outcome, s)
  | .get keys =>
    let (outcome, s) := db.getAll s [] keys
    (respond .values outcome, s)
  | .delete keys =>
    let (outcome, s) := db.deleteAll s keys
    (respond (fun _ => .success) outcome, s)
  | .auth username password =>
    let (known, s) := db.authenticate s username password
    (if known then .authenticated else .invalidCredentials, s)

/-- Runs statements in order. -/
def executeAll (db : Database σ) (s : σ) : List Statement → List Response × σ
  | [] => ([], s)
  | statement :: rest =>
    let (response, s) := db.execute s statement
    let (responses, s) := db.executeAll s rest
    (response :: responses, s)

end Database

end ExpiringStore
