import ExpiringStore.Database.Basic

/-!
# A database that keeps a record

Every call of a database operation is written down before it is made, whatever comes of it.
-/

namespace ExpiringStore

/-- A call of a database operation. -/
inductive Call where
  | set (key : String) (value : Bytes) (ttl : Option Duration)
  | get (key : String)
  | delete (key : String)
  | authenticate (username password : String)
deriving DecidableEq

/-- A state with the calls that led to it. -/
structure Recorded (σ : Type u) where
  /-- The state. -/
  state : σ
  /-- The calls, the latest first. -/
  calls : List Call

/-- Makes a call and writes it down. -/
def Recorded.calling {σ : Type u} (r : Recorded σ) (call : Call) (act : σ → α × σ) :
    α × Recorded σ :=
  let (result, s) := act r.state
  (result, ⟨s, call :: r.calls⟩)

/-- The database that writes down its calls. -/
def Database.recorded {σ : Type u} (db : Database σ) : Database (Recorded σ) where
  set r key value ttl := r.calling (.set key value ttl) fun s => db.set s key value ttl
  get r key := r.calling (.get key) fun s => db.get s key
  delete r key := r.calling (.delete key) fun s => db.delete s key
  authenticate r username password :=
    r.calling (.authenticate username password) fun s => db.authenticate s username password

end ExpiringStore
