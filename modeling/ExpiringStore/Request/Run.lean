import ExpiringStore.Database.Basic
import ExpiringStore.Request.Sink
import ExpiringStore.Statement.Parser

/-!
# Running a request

A request that cannot be read is answered by one line, and nothing of it is run. Otherwise its
statements are run in order, and the line of each is written and flushed before the next one runs.
The first failure of the sink ends the request.
-/

namespace ExpiringStore

/-- What became of something that was done to a database and reported to a sink. -/
structure Outcome (α : Type w) (σ : Type u) (τ : Type v) where
  /-- A result, or the failure of the sink that put an end to it. -/
  result : Except Fault α
  /-- The database afterwards. -/
  state : σ
  /-- The sink afterwards. -/
  sink : τ
  /-- What happened at the sink. -/
  events : List Sink.Event

/-- The outcome with a result of one's own where nothing failed. -/
def Outcome.returning {σ : Type u} {τ : Type v} (o : Outcome α σ τ) (result : β) : Outcome β σ τ :=
  { o with result := o.result.map fun _ => result }

namespace Database

variable {σ : Type u} {τ : Type v}

/-- Passes on one response. -/
def reply (sink : Sink τ) (s : σ) (t : τ) (response : Response) : Outcome Unit σ τ :=
  let delivery := sink.writeLine t response.line
  ⟨delivery.result, s, delivery.sink, delivery.events⟩

/-- Runs statements in order and passes on the response to each before the next one runs. -/
def replyAll (db : Database σ) (sink : Sink τ) (s : σ) (t : τ) :
    List Statement → Outcome Unit σ τ
  | [] => ⟨.ok (), s, t, []⟩
  | statement :: rest =>
    let (response, s) := db.execute s statement
    let first := reply sink s t response
    match first.result with
    | .error _ => first
    | .ok _ =>
      let others := db.replyAll sink s first.sink rest
      { others with events := first.events ++ others.events }

/-- Runs a request. The result is the number of statements run. -/
def runRequest (db : Database σ) (sink : Sink τ) (s : σ) (t : τ) (text : String) :
    Outcome Nat σ τ :=
  match parse text with
  | .error e => (reply sink s t (.error e.message)).returning 0
  | .ok statements => (db.replyAll sink s t statements).returning statements.length

end Database

end ExpiringStore
