import ExpiringStore.Connection.Handler

/-!
# Serving one connection step by step

Between two steps of a connection other connections can do something: while a line is on its way to
the client, the stores are free. `Means` are what the single steps are taken with, in whatever monad
that is, and `Means.receive` says in which order they are taken. Each line is passed on before the
next statement runs, and the first that cannot be passed on ends the connection.

`Means.ofSink` takes the steps in a scene that nobody else changes; there `Means.receive` comes to
`Scene.receive` (`Means.receive_ofSink`).
-/

namespace ExpiringStore

/-- What the steps of a connection are taken with. -/
structure Means (m : Type → Type v) where
  /-- Runs a statement in the client's session. -/
  execute : Statement → m Response
  /-- Passes on one line, unless that fails. -/
  pass : Bytes → ExceptT Fault m Unit
  /-- Makes an entry in the ledger. -/
  enter : (Ledger → Ledger) → m Unit

namespace Means

variable {m : Type → Type v} [Monad m] (means : Means m)

/-- Passes on one response. The result is the number of its bytes. -/
def reply (response : Response) : ExceptT Fault m Nat := do
  means.pass response.line
  return response.line.length

/-- Runs statements in order and passes on the response to each before the next one runs. The
result is the number of bytes of all responses. -/
def replyAll : List Statement → ExceptT Fault m Nat
  | [] => return 0
  | statement :: rest => do
    let response ← means.execute statement
    let first ← means.reply response
    let others ← replyAll rest
    return first + others

/-- Runs the text of a request, or answers that it is none. The result is the number of statements
run and of the bytes of the answer. -/
def runLine (line : Bytes) : ExceptT Fault m (Nat × Nat) :=
  match Utf8.decode? line with
  | none => return (0, ← means.reply (.error "request is not valid UTF-8"))
  | some text =>
    match parse text with
    | .error e => return (0, ← means.reply (.error e.message))
    | .ok statements => return (statements.length, ← means.replyAll statements)

/-- Answers one line. A request whose answer is cut short is not entered into the ledger. -/
def answer (line : Bytes) : ExceptT Fault m Unit :=
  if line.all isBlankByte then return
  else do
    let (executed, written) ← means.runLine line
    means.enter fun ledger => (ledger.answered executed).sent written

/-- Answers lines in order, up to the first failure. -/
def answerAll : List Bytes → ExceptT Fault m Unit
  | [] => return
  | line :: lines => do
    means.answer line
    answerAll lines

/-- What happens when something arrives while `rest` is left from before. The result is why the
connection ended, if it did, and what is left now. -/
def receive (rest : Bytes) : Arrival → m (Option Ending × Bytes)
  | .bytes chunk => do
    means.enter (·.received chunk.length)
    let frames := Frames.ofBytes (rest ++ chunk)
    match ← (means.answerAll frames.requests).run with
    | .error fault => return (some (.failed fault), frames.rest)
    | .ok _ =>
      return (if bufferLimit ≤ frames.rest.length then some .bufferFull else none, frames.rest)
  | .endOfInput => do
    match ← (means.answer rest).run with
    | .error fault => return (some (.failed fault), [])
    | .ok _ => return (some .disconnected, [])
  | .failure fault => return (some (.failed fault), rest)

end Means

/-- The means of a scene: each step is taken in the scene as the step before has left it. -/
def Means.ofSink {τ : Type} (sink : Sink τ) : Means (StateM (Scene τ)) where
  execute statement := modifyGet fun scene =>
    let (response, session) := Session.database.execute scene.session statement
    (response, { scene with session })
  pass line := ExceptT.mk <| modifyGet fun scene =>
    let delivery := sink.writeLine scene.sink line
    (delivery.result, { scene with sink := delivery.sink })
  enter entry := modify fun scene => { scene with ledger := entry scene.ledger }

end ExpiringStore
