/-!
# The ledger of all connections

Six 64-bit counts that every connection of a server adds to. They wrap around.
-/

namespace ExpiringStore

/-- What the connections of a server have done so far. -/
structure Ledger where
  /-- Connections taken up. -/
  accepted : UInt64
  /-- Connections taken up and not yet ended. -/
  active : UInt64
  /-- Requests answered. -/
  requests : UInt64
  /-- Statements run. -/
  statements : UInt64
  /-- Bytes received. -/
  read : UInt64
  /-- Bytes of answers. -/
  written : UInt64
deriving DecidableEq, Repr

namespace Ledger

/-- Nothing done yet. -/
def zero : Ledger := ⟨0, 0, 0, 0, 0, 0⟩

/-- A connection was taken up. -/
def opened (l : Ledger) : Ledger :=
  { l with accepted := l.accepted + 1, active := l.active + 1 }

/-- A connection ended. -/
def closed (l : Ledger) : Ledger := { l with active := l.active - 1 }

/-- A request with so many statements was answered. -/
def answered (l : Ledger) (statements : Nat) : Ledger :=
  { l with requests := l.requests + 1, statements := l.statements + UInt64.ofNat statements }

/-- So many bytes were received. -/
def received (l : Ledger) (bytes : Nat) : Ledger := { l with read := l.read + UInt64.ofNat bytes }

/-- So many bytes were sent. -/
def sent (l : Ledger) (bytes : Nat) : Ledger :=
  { l with written := l.written + UInt64.ofNat bytes }

end Ledger

end ExpiringStore
