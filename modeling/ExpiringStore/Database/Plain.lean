import ExpiringStore.Database.Basic

/-!
# A plain map as a database

A database that holds texts and their values, without expiry, refuses nothing, and recognises every
user or none.
-/

namespace ExpiringStore.Plain

/-- The values held, at most one to a key. -/
abbrev State := List (String × Bytes)

/-- The map without a key. -/
def without (key : String) (s : State) : State := s.filter (·.1 != key)

/-- The database over a plain map. -/
def database (recognises : Bool) : Database State where
  set s key value _ := (.ok (), (key, value) :: without key s)
  get s key := (.ok (s.lookup key), s)
  delete s key := (.ok (s.lookup key).isSome, without key s)
  authenticate s _ _ := (recognises, s)

end ExpiringStore.Plain
