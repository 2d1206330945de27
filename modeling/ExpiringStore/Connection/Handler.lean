import ExpiringStore.Connection.Framing
import ExpiringStore.Connection.Ledger
import ExpiringStore.Request.Run
import ExpiringStore.Session
import ExpiringStore.Text.Blank

/-!
# Serving one connection

A connection waits for something to arrive. Bytes are put behind what is left from before and cut
into lines; every line is a request and is answered before the next. Then, if what is left has grown
to the limit, the connection ends. At the end of the input what is left is run as a last request,
and the connection ends. A failure to read or to write ends it at once.

A line of ASCII blanks is passed over. A line that is not UTF-8 is answered by an error, and like
any other request it is entered into the ledger once it has been answered.
-/

namespace ExpiringStore

/-- The words for a failure to pass on or receive bytes. -/
def Fault.message : Fault → String
  | .brokenPipe => "Broken pipe (os error 32)"
  | .connectionReset => "Connection reset by peer (os error 104)"
  | .writeZero => "write zero"

/-- Why a connection ended. -/
inductive Ending where
  /-- The client ended its input. -/
  | disconnected
  /-- A line grew to the limit. -/
  | bufferFull
  /-- Bytes could not be passed on or received. -/
  | failed (fault : Fault)
deriving DecidableEq, Repr

/-- The words for an ending. -/
def Ending.message : Ending → String
  | .disconnected => "Client disconnected"
  | .bufferFull => "Buffer size limit exceeded"
  | .failed fault => "I/O error: " ++ fault.message

/-- What a connection waits for. -/
inductive Arrival where
  /-- Some bytes. -/
  | bytes (chunk : Bytes)
  /-- The end of the input. -/
  | endOfInput
  /-- A failure to receive anything. -/
  | failure (fault : Fault)
deriving DecidableEq

/-- The number of bytes without a line feed at which a connection ends. -/
def bufferLimit : Nat := 65536

/-- All that a request of a connection can change. -/
structure Scene (τ : Type u) where
  /-- The client's session. -/
  session : Session
  /-- The ledger of all connections. -/
  ledger : Ledger
  /-- Where answers go. -/
  sink : τ

/-- A connection after something arrived. -/
structure Turn (τ : Type u) where
  /-- Why the connection ended, if it did. -/
  ending : Option Ending
  /-- The bytes left for a later line. -/
  rest : Bytes
  /-- The session, the ledger and the sink. -/
  scene : Scene τ

namespace Scene

variable {τ : Type u}

/-- Runs the text of a request, or answers that it is none. -/
def runLine (sink : Sink τ) (scene : Scene τ) (line : Bytes) :
    Outcome Nat Session τ :=
  match Utf8.decode? line with
  | some text => Session.database.runRequest sink scene.session scene.sink text
  | none =>
    (Database.reply sink scene.session scene.sink
      (.error "request is not valid UTF-8")).returning 0

/-- Answers one line. The outcome is the failure that cut the answer short, if one did; such a
request is not entered into the ledger. -/
def answer (sink : Sink τ) (scene : Scene τ) (line : Bytes) : Option Fault × Scene τ :=
  if line.all isBlankByte then (none, scene)
  else
    let outcome := scene.runLine sink line
    let scene := { scene with session := outcome.state, sink := outcome.sink }
    match outcome.result with
    | .error fault => (some fault, scene)
    | .ok executed =>
      let written := (Sink.bytesOf outcome.events).length
      (none, { scene with ledger := (scene.ledger.answered executed).sent written })

/-- Answers lines in order, up to the first failure. -/
def answerAll (sink : Sink τ) (scene : Scene τ) : List Bytes → Option Fault × Scene τ
  | [] => (none, scene)
  | line :: lines =>
    match scene.answer sink line with
    | (some fault, scene) => (some fault, scene)
    | (none, scene) => scene.answerAll sink lines

/-- What happens when something arrives while `rest` is left from before. -/
def receive (sink : Sink τ) (scene : Scene τ) (rest : Bytes) : Arrival → Turn τ
  | .bytes chunk =>
    let scene := { scene with ledger := scene.ledger.received chunk.length }
    let frames := Frames.ofBytes (rest ++ chunk)
    match scene.answerAll sink frames.requests with
    | (some fault, scene) => ⟨some (.failed fault), frames.rest, scene⟩
    | (none, scene) =>
      let ending := if bufferLimit ≤ frames.rest.length then some .bufferFull else none
      ⟨ending, frames.rest, scene⟩
  | .endOfInput =>
    match scene.answer sink rest with
    | (some fault, scene) => ⟨some (.failed fault), [], scene⟩
    | (none, scene) => ⟨some .disconnected, [], scene⟩
  | .failure fault => ⟨some (.failed fault), rest, scene⟩

end Scene

end ExpiringStore
