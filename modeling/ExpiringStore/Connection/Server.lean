import ExpiringStore.Connection.Handler

/-!
# All connections of a server

A server holds what its connections share: the stores and the ledger. Each connection has besides
them a session of its own, the bytes left for a later line, and somewhere to send answers. Whatever
arrives on a connection is dealt with before anything arrives on another.
-/

namespace ExpiringStore

/-- What belongs to one connection alone. -/
structure Connection (τ : Type u) where
  /-- Whom the client is known as. -/
  identity : Option Identity
  /-- The bytes left for a later line. -/
  rest : Bytes
  /-- Where answers go. -/
  sink : τ
  /-- Why the connection ended, if it has. -/
  ending : Option Ending

namespace Connection

variable {τ : Type u}

/-- A connection on which nothing has arrived. -/
def fresh (sink : τ) : Connection τ := ⟨none, [], sink, none⟩

/-- Whether something can still arrive. -/
def isOpen (c : Connection τ) : Bool := c.ending.isNone

/-- What becomes of a connection, the stores and the ledger when something arrives. Nothing arrives
on a connection that has ended; one that ends now is entered into the ledger as ended. -/
def receive (sink : Sink τ) (c : Connection τ) (stores : Stores) (ledger : Ledger)
    (arrival : Arrival) : Connection τ × Stores × Ledger :=
  if c.isOpen then
    let turn := Scene.receive sink ⟨⟨stores, c.identity⟩, ledger, c.sink⟩ c.rest arrival
    let session := turn.scene.session
    let ledger := turn.scene.ledger
    (⟨session.identity, turn.rest, turn.scene.sink, turn.ending⟩, session.stores,
      if turn.ending.isSome then ledger.closed else ledger)
  else (c, stores, ledger)

end Connection

/-- The connections of a server and what they share. -/
structure Server (τ : Type u) where
  /-- The stores and the clock. -/
  stores : Stores
  /-- The ledger. -/
  ledger : Ledger
  /-- All connections so far, ended ones included, in the order they were taken up. -/
  connections : List (Connection τ)

namespace Server

variable {τ : Type u}

/-- A server over stores, before its first connection. -/
def start (stores : Stores) : Server τ := ⟨stores, .zero, []⟩

/-- Takes up a connection. Its index is the number of those before it. -/
def accept (s : Server τ) (sink : τ) : Server τ where
  stores := s.stores
  ledger := s.ledger.opened
  connections := s.connections ++ [.fresh sink]

/-- The connection with an index, unless it has ended. -/
def connection? (s : Server τ) (index : Nat) : Option (Connection τ) :=
  s.connections[index]?.filter (·.isOpen)

/-- The server with another connection at an index. -/
def setConnection (s : Server τ) (index : Nat) (c : Connection τ) : Server τ :=
  { s with connections := s.connections.set index c }

/-- What becomes of the server when something arrives on a connection. -/
def arrive (sink : Sink τ) (s : Server τ) (index : Nat) (arrival : Arrival) : Server τ :=
  match s.connection? index with
  | none => s
  | some c =>
    let (c, stores, ledger) := c.receive sink s.stores s.ledger arrival
    { s with stores, ledger }.setConnection index c

end Server

end ExpiringStore
