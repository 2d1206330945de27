import ExpiringStore.Hub.Basic
import ExpiringStore.Store.Step

/-!
# Runs of a hub

Whatever happens at a hub happens one step after another: sessions are opened and left, accounts
come and go, requests and single statements are run, time passes, and the data is worked on
directly. `Hub.step` carries out one step and gives its answer, and `Hub.run` carries out a list of
them.
-/

namespace ExpiringStore.Hub

/-- Something that happens at a hub. -/
inductive Step where
  /-- A session is opened. -/
  | join
  /-- A session is left. -/
  | leave (index : Nat)
  /-- An account is added, or replaced. -/
  | register (username password : String)
  /-- An account is removed. -/
  | unregister (username : String)
  /-- A request is run in a session. -/
  | request (index : Nat) (text : String)
  /-- A statement is run in a session. -/
  | statement (index : Nat) (statement : Statement)
  /-- Time passes. -/
  | elapse (d : Duration)
  /-- The data is worked on directly. -/
  | data (step : Store.Step Bytes)
deriving DecidableEq

/-- What comes of a step. -/
inductive Answer where
  /-- Nothing to be told. -/
  | done
  /-- There is no such session. -/
  | absent
  /-- The number of a session. -/
  | session (index : Nat)
  /-- Whether something was there. -/
  | removed (b : Bool)
  /-- How many statements of a request were run, and the bytes of its answer. -/
  | answered (executed : Nat) (bytes : Bytes)
  /-- The response to a statement. -/
  | response (r : Response)
  /-- The answer of the data. -/
  | data (answer : Store.Answer Bytes)
deriving DecidableEq

/-- Carries out one step. -/
def step (h : Hub) : Step → Answer × Hub
  | .join => (.session h.seats.length, h.join)
  | .leave index =>
    let (left, h) := h.leave index
    (.removed left, h)
  | .register username password =>
    (.done, { h with stores := h.stores.register username password .admin })
  | .unregister username =>
    let (removed, stores) := h.stores.unregister username
    (.removed removed, { h with stores })
  | .request index text =>
    match h.runRequest index text with
    | (some (executed, bytes), h) => (.answered executed bytes, h)
    | (none, h) => (.absent, h)
  | .statement index statement =>
    match h.execute index statement with
    | (some response, h) => (.response response, h)
    | (none, h) => (.absent, h)
  | .elapse d => (.done, { h with stores := h.stores.elapse d })
  | .data operation =>
    let (answer, data) := h.stores.data.step h.stores.now operation
    (.data answer, { h with stores := { h.stores with data } })

/-- Carries out steps in order. -/
def run (h : Hub) : List Step → List Answer × Hub
  | [] => ([], h)
  | first :: rest =>
    let (answer, h) := h.step first
    let (answers, h) := run h rest
    (answer :: answers, h)

end ExpiringStore.Hub
