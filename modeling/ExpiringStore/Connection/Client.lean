import ExpiringStore.Connection.Server

/-!
# Clients

The other end of a connection. A client that is present receives whatever is sent to it; nothing
can be sent to one that is gone. Four things can be done by a client: send bytes, end its input,
vanish after its bytes were dealt with, and hang up before they are.
-/

namespace ExpiringStore

/-- A client, as far as its connection can tell. -/
structure Peer where
  /-- Whether there is anybody to receive an answer. -/
  present : Bool
  /-- What was received, the latest first. -/
  received : List Bytes

namespace Peer

/-- A client that has received nothing yet. -/
def fresh : Peer := ⟨true, []⟩

/-- The way to a client. -/
def sink : Sink Peer where
  write p bytes :=
    if p.present then (.ok bytes.length, { p with received := bytes :: p.received })
    else (.error .brokenPipe, p)
  flush p := (if p.present then .ok () else .error .brokenPipe, p)

/-- All that was received. -/
def bytes (p : Peer) : Bytes := p.received.reverse.flatten

end Peer

namespace Server

/-- The server after a change to one of its clients. -/
def withPeer (s : Server Peer) (index : Nat) (f : Peer → Peer) : Server Peer :=
  match s.connection? index with
  | none => s
  | some c => s.setConnection index { c with sink := f c.sink }

/-- The server when nobody has received anything lately on a connection. -/
def forgetReceived (s : Server Peer) (index : Nat) : Server Peer :=
  s.withPeer index fun p => { p with received := [] }

/-- The server when the client of a connection is gone. -/
def leave (s : Server Peer) (index : Nat) : Server Peer :=
  s.withPeer index fun p => { p with present := false }

/-- A client ends its input. -/
def close (s : Server Peer) (index : Nat) : Server Peer :=
  (s.forgetReceived index).arrive Peer.sink index .endOfInput

/-- A client sends bytes. -/
def send (s : Server Peer) (index : Nat) (data : Bytes) : Server Peer :=
  (s.forgetReceived index).arrive Peer.sink index (.bytes data)

/-- A client sends bytes and goes away without reading the answers to them. If there were any, the
connection is cut, and otherwise the client's input just ends. -/
def vanish (s : Server Peer) (index : Nat) (data : Bytes) : Server Peer :=
  let s := s.send index data
  match s.connection? index with
  | none => s
  | some c =>
    if c.sink.received.isEmpty then (s.leave index).arrive Peer.sink index .endOfInput
    else s.arrive Peer.sink index (.failure .connectionReset)

/-- A client sends bytes and is gone before they are dealt with. -/
def hangUp (s : Server Peer) (index : Nat) (data : Bytes) : Server Peer :=
  (((s.forgetReceived index).leave index).arrive Peer.sink index (.bytes data)).arrive Peer.sink
    index .endOfInput

/-- What the client of a connection has received since it last did something. -/
def received (s : Server Peer) (index : Nat) : Bytes :=
  match s.connections[index]? with
  | none => []
  | some c => c.sink.bytes

end Server

end ExpiringStore
