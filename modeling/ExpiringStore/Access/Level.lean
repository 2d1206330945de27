/-!
# Access levels

What a known user may do with the data, and how a refusal is worded.
-/

namespace ExpiringStore

/-- What can be done with a key. -/
inductive Operation where
  | read
  | write
  | delete
deriving DecidableEq, Repr

/-- The word for an operation. -/
def Operation.word : Operation → String
  | read => "read"
  | write => "write"
  | delete => "delete"

/-- An operation was refused. -/
structure AccessDenied where
  /-- The operation that was refused. -/
  operation : Operation
deriving DecidableEq, Repr

/-- The words for a refusal. -/
def AccessDenied.message (d : AccessDenied) : String :=
  "access denied: " ++ d.operation.word ++ " not permitted"

/-- What a user may do. -/
inductive AccessLevel where
  /-- Everything. -/
  | admin
deriving DecidableEq, Repr

namespace AccessLevel

/-- The word for a level. -/
def word : AccessLevel → String
  | admin => "admin"

/-- Whether a level allows an operation. -/
def permits : AccessLevel → Operation → Bool
  | admin, _ => true

end AccessLevel

end ExpiringStore
