import ExpiringStore.Time.Duration

/-!
# Statements

What a client can ask for. A request is a list of statements, run in order.
-/

namespace ExpiringStore

/-- One thing a client asks for. -/
inductive Statement where
  /-- Store a value under a key, for a time or for as long as the store keeps entries. -/
  | set (key value : String) (ttl : Option Duration)
  /-- Fetch the values of some keys. -/
  | get (keys : List String)
  /-- Remove some keys. -/
  | delete (keys : List String)
  /-- Become known as a user. -/
  | auth (username password : String)
deriving DecidableEq

end ExpiringStore
