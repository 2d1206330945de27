import ExpiringStore.Connection.Client
import ExpiringStore.Launch.Text
import ExpiringStore.Sweeper.Basic

/-!
# A run of the program

The program reads its command line, and either says something and exits or becomes a server. A
server has one account, the admin's, and a sweeper on its data; it listens until it is told to stop,
and then exits cleanly. `Launch.run` is such a run from its start to its exit, with what clients do
meanwhile.
-/

namespace ExpiringStore

/-- How the program exits. -/
structure Exit where
  /-- The exit code. -/
  code : Nat
  /-- What was written to standard output. -/
  stdout : String
  /-- What was written to standard error. -/
  stderr : String
deriving DecidableEq

namespace Exit

/-- An exit without failure, after some output. -/
def clean (stdout : String) : Exit := ⟨0, stdout, ""⟩

/-- An exit because of an error and what is behind it. -/
def failure (stdout message : String) (cause? : Option String) : Exit :=
  let cause := cause?.elim "" fun cause => "\nCaused by:\n    " ++ cause ++ "\n"
  ⟨1, stdout, "Error: " ++ message ++ "\n" ++ cause⟩

end Exit

namespace Launch

/-- What the program does with its command line: exit at once, or serve with the admin's password
at hand. -/
def prepare (arguments : List String) (environment : String → Option String) :
    Except Exit (Options × String) :=
  match Command.read arguments environment with
  | .ok .help => .error (.clean helpText)
  | .ok .version => .error (.clean versionText)
  | .error e =>
    let printed := match e with
      | .unknownArgument _ => helpText
      | _ => ""
    .error (.failure printed e.message e.cause?)
  | .ok (.serve o) =>
    match o.password with
    | some password => .ok (o, password)
    | none =>
      .error (.failure ""
        ("no admin password given; pass --password or set " ++ Options.passwordVariable) none)

/-- How the program exits when it cannot listen. -/
def cannotListen (o : Options) (cause : String) : Exit :=
  .failure "" ("failed to bind " ++ o.address) (some cause)

/-- The stores of a server that starts at `now`. -/
def initialStores (o : Options) (password : String) (now : Instant) : Stores :=
  (Stores.empty .mixing o.defaultExpiry .never now).register o.user password .admin

/-- A server at work: what its connections share, and the sweeper. -/
structure Service where
  /-- The stores and the clock. -/
  stores : Stores
  /-- The ledger of all connections. -/
  ledger : Ledger
  /-- The sweeper on the data. -/
  sweeper : Sweeper

namespace Service

/-- A server that has just started. -/
def start (o : Options) (password : String) (now : Instant) : Service :=
  ⟨initialStores o password now, .zero, .start .standard⟩

/-- Some milliseconds pass. -/
def elapse (s : Service) : Nat → Service
  | 0 => s
  | n + 1 =>
    let stores := s.stores.elapse (.ofMillis 1)
    let (sweeper, data) := s.sweeper.tick stores.data stores.now
    elapse { s with stores := { stores with data }, sweeper } n

/-- A client connects. -/
def connect (s : Service) : Connection Peer × Service :=
  (.fresh .fresh, { s with ledger := s.ledger.opened })

/-- Something arrives from a client. -/
def deliver (s : Service) (c : Connection Peer) (arrival : Arrival) : Connection Peer × Service :=
  let (c, stores, ledger) := c.receive Peer.sink s.stores s.ledger arrival
  (c, { s with stores, ledger })

/-- A client connects, sends bytes, ends its input and reads to the end. -/
def talk (s : Service) (data : Bytes) : Bytes × Service :=
  let (c, s) := s.connect
  let (c, s) := s.deliver c (.bytes data)
  let (c, s) := s.deliver c .endOfInput
  (c.sink.bytes, s)

end Service

/-- The host that the program runs on. -/
structure Host where
  /-- The ports that are already in use. -/
  portsTaken : List UInt16
  /-- Whether a client on the host can reach the server. -/
  reachable : Bool
deriving DecidableEq

/-- Something that happens while a server is at work. -/
inductive Event where
  /-- A client talks to the server. -/
  | talk (data : Bytes)
  /-- Some milliseconds pass. -/
  | pause (ms : Nat)
deriving DecidableEq

/-- The client of a host that cannot reach the server. -/
inductive ClientFault where
  | networkUnreachable
deriving DecidableEq, Repr

/-- The answers to clients, in order, and how the program exited. -/
structure Transcript where
  /-- For each event the bytes a client read, or `none` if there was no client. -/
  answers : List (Option Bytes)
  /-- How the program exited. -/
  exit : Exit
deriving DecidableEq

/-- What clients are answered in the course of events. -/
def answers (host : Host) (s : Service) : List Event → Except ClientFault (List (Option Bytes))
  | [] => .ok []
  | .pause ms :: events => do return none :: (← answers host (s.elapse ms) events)
  | .talk data :: events =>
    if host.reachable then do
      let (answer, s) := s.talk data
      return some answer :: (← answers host s events)
    else .error .networkUnreachable

/-- A whole run: the program starts, events happen if it is listening, and it is told to stop. -/
def run (host : Host) (arguments : List String) (environment : String → Option String)
    (now : Instant) (events : List Event) : Except ClientFault Transcript :=
  match prepare arguments environment with
  | .error exit => .ok ⟨[], exit⟩
  | .ok (o, password) =>
    if o.port ∈ host.portsTaken then .ok ⟨[], cannotListen o "Address already in use (os error 98)"⟩
    else do
      let answers ← answers host (.start o password now) events
      return ⟨answers, .clean o.banner⟩

end Launch

end ExpiringStore
