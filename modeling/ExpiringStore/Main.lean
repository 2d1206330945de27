import ExpiringStore.Connection.Means
import ExpiringStore.Launch.Run
import Std.Async.DNS
import Std.Async.Signal
import Std.Async.TCP
import Std.Async.Timer
import Std.Sync.Mutex

/-!
# The program

The outer layer: sockets, tasks, the clock and the process. Each connection has a task of its own
that waits for something to arrive and then takes the steps of `Means.receive`, and one task makes
the sweeper's passes. All tasks share a `Launch.Service` behind a lock, which is held for one step
at a time: nobody waits for a line that is on its way to another client.
-/

namespace ExpiringStore.Program

open Std.Async

/-- The service, behind a lock. -/
abbrev Shared := Std.Mutex Launch.Service

/-- What the process's clock reads. -/
def now : IO Instant := do
  let nanos ← IO.monoNanosNow
  return (Duration.ofNanos? nanos).elim .zero Instant.zero.later

/-- Does something with the service at the present time. -/
def update (shared : Shared) (act : Launch.Service → α × Launch.Service) : IO α :=
  shared.atomically do
    let present ← now
    modifyGet fun s => act { s with stores := { s.stores with now := present } }

/-- Waits for something to arrive. -/
def await (client : TCP.Socket.Client) : Async Arrival := do
  try
    match ← client.recv? 65536 with
    | some chunk => return .bytes chunk.toList
    | none => return .endOfInput
  catch _ => return .failure .connectionReset

/-- Sends one line, unless that fails. -/
def send (client : TCP.Socket.Client) (line : Bytes) : Async (Except Fault Unit) := do
  try
    client.send ⟨line.toArray⟩
    return .ok ()
  catch _ => return .error .brokenPipe

/-- Makes an entry in the ledger. -/
def enter (shared : Shared) (entry : Ledger → Ledger) : IO Unit :=
  update shared fun s => ((), { s with ledger := entry s.ledger })

/-- What one client is served with. Whom the client is known as is kept from step to step. -/
def means (shared : Shared) (client : TCP.Socket.Client) :
    Means (StateT (Option Identity) Async) where
  execute statement := do
    let identity ← get
    let (response, identity) ← update shared fun s =>
      let (response, session) := Session.database.execute ⟨s.stores, identity⟩ statement
      ((response, session.identity), { s with stores := session.stores })
    set identity
    return response
  pass line := ExceptT.mk do send client line
  enter entry := enter shared entry

/-- Serves one client until its connection ends. -/
partial def attend (shared : Shared) (client : TCP.Socket.Client) (identity : Option Identity)
    (rest : Bytes) : Async Unit := do
  let arrival ← await client
  let ((ending, rest), identity) ← ((means shared client).receive rest arrival).run identity
  if ending.isNone then attend shared client identity rest
  else
    enter shared .closed
    try client.shutdown catch _ => return ()

/-- Takes up connections, each in a task of its own. -/
partial def acceptAll (shared : Shared) (listener : TCP.Socket.Server) : Async Unit := do
  let client? ← try some <$> listener.accept catch _ => pure none
  if let some client := client? then
    enter shared .opened
    background (attend shared client none [])
  acceptAll shared listener

/-- Makes the sweeper's passes. -/
partial def sweep (shared : Shared) : Async Unit := do
  let pause ← shared.atomically do return (← get).sweeper.pause
  sleep (.ofNat ((pause.nanos + nanosPerMilli - 1) / nanosPerMilli))
  update shared fun s =>
    let (sweeper, data) := s.sweeper.pass s.stores.data s.stores.now
    ((), { s with stores := { s.stores with data }, sweeper })
  sweep shared

/-- The address to listen at. -/
def socketAddress (o : Options) : IO Std.Net.SocketAddress := do
  match Std.Net.IPv4Addr.ofString o.host with
  | some addr => return .v4 ⟨addr, o.port⟩
  | none =>
    match Std.Net.IPv6Addr.ofString o.host with
    | some addr => return .v6 ⟨addr, o.port⟩
    | none =>
      match (← (DNS.getAddrInfo o.host "").block).toList with
      | .v4 addr :: _ => return .v4 ⟨addr, o.port⟩
      | .v6 addr :: _ => return .v6 ⟨addr, o.port⟩
      | [] => throw (IO.userError "failed to lookup address information")

/-- A socket that listens as the options say. -/
def listen (o : Options) : IO TCP.Socket.Server := do
  let listener ← TCP.Socket.Server.mk
  listener.bind (← socketAddress o)
  listener.listen 1024
  return listener

/-- The words for a failure to listen. -/
def listenFailure : IO.Error → String
  | .resourceBusy .. => "Address already in use (os error 98)"
  | .permissionDenied .. => "Permission denied (os error 13)"
  | e => toString e

/-- Writes what an exit has to say and gives its code. -/
def finish (exit : Exit) : IO UInt32 := do
  (← IO.getStdout).putStr exit.stdout
  (← IO.getStderr).putStr exit.stderr
  return UInt32.ofNat exit.code

/-- Serves until the process is interrupted. -/
def serve (o : Options) (password : String) (listener : TCP.Socket.Server) : IO UInt32 := do
  let stdout ← IO.getStdout
  stdout.putStr o.banner
  stdout.flush
  let shared ← Std.Mutex.new (Launch.Service.start o password (← now))
  discard <| (sweep shared).toIO
  discard <| (acceptAll shared listener).toIO
  let interrupt ← Signal.Waiter.mk .sigint false
  discard <| (← interrupt.wait).block
  return 0

end ExpiringStore.Program

open ExpiringStore in
/-- Runs the program with its command line and the process's environment. -/
def main (arguments : List String) : IO UInt32 := do
  let user ← IO.getEnv Options.userVariable
  let password ← IO.getEnv Options.passwordVariable
  let environment (name : String) : Option String :=
    if name = Options.userVariable then user
    else if name = Options.passwordVariable then password
    else none
  match Launch.prepare arguments environment with
  | .error exit => Program.finish exit
  | .ok (options, password) =>
    match ← (Program.listen options).toBaseIO with
    | .ok listener => Program.serve options password listener
    | .error e => Program.finish (Launch.cannotListen options (Program.listenFailure e))
