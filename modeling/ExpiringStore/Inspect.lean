import ExpiringStore.Session
import ExpiringStore.Text.Quoted

/-!
# Inspecting values

How stores, accounts, sessions and statements are shown to whoever looks into a running program. A
password and its digest are never shown.
-/

namespace ExpiringStore

/-- A number of units with a decimal fraction of at most so many digits, given by its digits up to
the last that is not zero. -/
def decimalText (whole fraction digits : Nat) : String :=
  let padded := (toString (Nat.pow 10 digits + fraction)).toList.drop 1
  let significant := (padded.reverse.dropWhile (· == '0')).reverse
  if significant.isEmpty then toString whole
  else toString whole ++ "." ++ String.ofList significant

/-- A duration in the largest unit of which it holds one. -/
def Duration.inspect (d : Duration) : String :=
  if nanosPerSecond ≤ d.nanos then decimalText d.seconds d.subsecond 9 ++ "s"
  else if nanosPerMilli ≤ d.nanos then
    decimalText (d.nanos / nanosPerMilli) (d.nanos % nanosPerMilli) 6 ++ "ms"
  else if 1000 ≤ d.nanos then decimalText (d.nanos / 1000) (d.nanos % 1000) 3 ++ "µs"
  else toString d.nanos ++ "ns"

/-- An expiry. -/
def Expiry.inspect : Expiry → String
  | .never => "Never"
  | .after ttl => "After(" ++ ttl.inspect ++ ")"

/-- A named record with named parts. -/
def inspectRecord (name : String) (parts : List (String × String)) : String :=
  name ++ " \x7b " ++ ", ".intercalate (parts.map fun (part, text) => part ++ ": " ++ text) ++
    " \x7d"

/-- A store: its shape and some of its counters, not its entries. -/
def Store.inspect (s : Store α) : String :=
  inspectRecord "StorageEngine"
    [("shards", toString shardCount), ("default_expiry", s.defaultExpiry.inspect),
     ("key_count", toString s.counters.keys), ("get_count", toString s.counters.gets),
     ("set_count", toString s.counters.sets)]

/-- An access level. -/
def AccessLevel.inspect : AccessLevel → String
  | .admin => "Admin"

/-- An account. -/
def Account.inspect (a : Account) : String :=
  inspectRecord "RegisteredUser"
    [("username", quoted a.username), ("password", "PasswordDigest(<redacted>)"),
     ("access", a.access.inspect)]

/-- An identity. -/
def Identity.inspect (i : Identity) : String :=
  inspectRecord "Identity" [("username", quoted i.username), ("access", i.access.inspect)]

/-- A session. -/
def Session.inspect (s : Session) : String :=
  inspectRecord "Session"
    [("store", s.stores.data.inspect), ("users", s.stores.users.inspect),
     ("identity", match s.identity with
      | none => "None"
      | some identity => "Some(" ++ identity.inspect ++ ")")]

/-- What runs a session's requests. -/
def Session.inspectRunner (s : Session) : String := inspectRecord "Driver" [("db", s.inspect)]

/-- A login, without the password. -/
def inspectLogin (username : String) : String :=
  "Auth(" ++ inspectRecord "AuthStatement"
    [("username", quoted username), ("password", quoted "<redacted>")] ++ ")"

end ExpiringStore
