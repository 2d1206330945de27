import ExpiringStore.Request.Run
import ExpiringStore.Session

/-!
# Sessions that come and go

A hub holds the stores and the sessions opened over them. A session that has been left keeps its
number; nothing can be done in it any more.
-/

namespace ExpiringStore

/-- The place of a session in a hub. -/
inductive Seat where
  /-- There is a session, known as somebody or as nobody. -/
  | taken (identity : Option Identity)
  /-- The session has been left. -/
  | vacated
deriving DecidableEq

/-- The stores and the sessions over them. -/
structure Hub where
  /-- The stores and the clock. -/
  stores : Stores
  /-- The sessions in the order they were opened. -/
  seats : List Seat

namespace Hub

/-- A hub without sessions. -/
def start (stores : Stores) : Hub := ⟨stores, []⟩

/-- Opens a session. Its number is that of the sessions opened before it. -/
def join (h : Hub) : Hub := { h with seats := h.seats ++ [.taken none] }

/-- The session with a number, unless there is none or it has been left. -/
def session? (h : Hub) (index : Nat) : Option Session :=
  match h.seats[index]? with
  | some (.taken identity) => some ⟨h.stores, identity⟩
  | _ => none

/-- The hub after something was done in a session. -/
def withSession (h : Hub) (index : Nat) (s : Session) : Hub :=
  ⟨s.stores, h.seats.set index (.taken s.identity)⟩

/-- Leaves a session and tells whether there was one. -/
def leave (h : Hub) (index : Nat) : Bool × Hub :=
  match h.session? index with
  | none => (false, h)
  | some _ => (true, { h with seats := h.seats.set index .vacated })

/-- Does something in a session, if there is one. -/
def within (h : Hub) (index : Nat) (act : Session → α × Session) : Option α × Hub :=
  match h.session? index with
  | none => (none, h)
  | some s =>
    let (result, s) := act s
    (some result, h.withSession index s)

/-- Runs a request in a session. The result is the number of statements run and the bytes of the
answer. -/
def runRequest (h : Hub) (index : Nat) (text : String) : Option (Nat × Bytes) × Hub :=
  h.within index fun s =>
    let outcome := Session.database.runRequest Sink.perfect s () text
    ((outcome.result.toOption.getD 0, Sink.bytesOf outcome.events), outcome.state)

/-- Runs a statement in a session. -/
def execute (h : Hub) (index : Nat) (statement : Statement) : Option Response × Hub :=
  h.within index fun s => Session.database.execute s statement

end Hub

end ExpiringStore
