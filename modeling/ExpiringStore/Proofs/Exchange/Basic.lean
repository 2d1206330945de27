import ExpiringStore.Proofs.Hub.Session
import Mathlib.Logic.Function.Basic

/-!
# Requests in any interleaving

A request runs its statements one by one, and the line of each is sent before the next one runs.
While a line is being sent the sessions of other clients go on, time passes, accounts come and go,
and a sweep may pass over the data.  An `Exchange` is a hub with the requests that are under way in
its sessions; one statement, of whichever session, is one step.  Everything that sessions do for
their clients is kept in a log.

A request that nothing interrupts does what `Hub.runRequest` does (`Exchange.run_request`).  Other
runs of an exchange are what becomes of several such requests when their statements take turns, or
when a request is given up because its client can no longer be reached.
-/

namespace ExpiringStore

/-- A request under way: the number of its statements, and those that have not been run. -/
structure Task where
  size : Nat
  left : List Statement

/-- What a session does for its client. -/
inductive Deed where
  /-- The client is sent a line because its request cannot be read. -/
  | refused (line : Bytes)
  /-- A statement is run, and the client is sent a line. -/
  | ran (statement : Statement) (line : Bytes)
  /-- A request has come to its end. -/
  | returned (executed : Nat)
deriving DecidableEq

/-- What the client is sent. -/
def Deed.bytes : Deed → Bytes
  | refused line => line
  | ran _ line => line
  | returned _ => []

/-- What was done, in which session, and when. -/
structure Record where
  client : Nat
  time : Instant
  deed : Deed
deriving DecidableEq

/-- A hub, the requests under way in its sessions, and what was done so far, the latest first. -/
structure Exchange where
  hub : Hub
  tasks : Nat → Option Task
  log : List Record

namespace Exchange

inductive Event where
  | join
  | leave (index : Nat)
  | register (username password : String)
  | unregister (username : String)
  | elapse (d : Duration)
  | sweep
  /-- A client sends a request in a session that has none under way. -/
  | submit (index : Nat) (text : String)
  /-- The request of a session goes on by one statement, or comes to its end. -/
  | proceed (index : Nat)
  /-- The request of a session is given up. -/
  | abandon (index : Nat)

/-- The exchange over a hub, with no request under way and nothing done yet. -/
def start (hub : Hub) : Exchange := ⟨hub, fun _ => none, []⟩

def setTask (x : Exchange) (index : Nat) (task : Option Task) : Exchange :=
  { x with tasks := Function.update x.tasks index task }

def record (x : Exchange) (index : Nat) (deed : Deed) : Exchange :=
  { x with log := ⟨index, x.hub.stores.now, deed⟩ :: x.log }

/-- Something happens at the hub that is no business of a request. -/
def aside (x : Exchange) (step : Hub.Step) : Exchange := { x with hub := (x.hub.step step).2 }

/-- All of a request is read before any of it is run. -/
def submit (x : Exchange) (index : Nat) (text : String) : Exchange :=
  if (x.hub.session? index).isNone ∨ (x.tasks index).isSome then x
  else
    match parse text with
    | .error e =>
      (x.record index (.refused (Response.error e.message).line)).setTask index (some ⟨0, []⟩)
    | .ok statements => x.setTask index (some ⟨statements.length, statements⟩)

def proceed (x : Exchange) (index : Nat) : Exchange :=
  match x.tasks index with
  | none => x
  | some ⟨size, []⟩ => (x.record index (.returned size)).setTask index none
  | some ⟨size, statement :: left⟩ =>
    match x.hub.execute index statement with
    | (none, _) => x
    | (some response, hub) =>
      { x.record index (.ran statement response.line) with hub }.setTask index (some ⟨size, left⟩)

/-- Carries out one event. -/
def step (x : Exchange) : Event → Exchange
  | .join => x.aside .join
  | .leave index => (x.aside (.leave index)).setTask index none
  | .register username password => x.aside (.register username password)
  | .unregister username => x.aside (.unregister username)
  | .elapse d => x.aside (.elapse d)
  | .sweep => x.aside (.data .removeExpired)
  | .submit index text => x.submit index text
  | .proceed index => x.proceed index
  | .abandon index => x.setTask index none

/-- Carries out events in order. -/
def run (x : Exchange) (events : List Event) : Exchange := events.foldl step x

lemma run_append (x : Exchange) (a b : List Event) : x.run (a ++ b) = (x.run a).run b :=
  List.foldl_append

/-! ## A request without interruption -/

/-- The next statement of a task. -/
lemma step_proceed {x : Exchange} {index : Nat} {s : Session} {size : Nat} {statement : Statement}
    {left : List Statement} (hs : x.hub.session? index = some s)
    (htask : x.tasks index = some ⟨size, statement :: left⟩) :
    x.step (.proceed index) =
      { hub := x.hub.withSession index (Session.database.execute s statement).2
        tasks := Function.update x.tasks index (some ⟨size, left⟩)
        log := ⟨index, x.hub.stores.now,
          .ran statement (Session.database.execute s statement).1.line⟩ :: x.log } := by
  simp only [step, proceed, htask, Hub.execute_of_session? hs, record, setTask]

/-- Nothing is run in a session that is not there. -/
lemma step_proceed_absent {x : Exchange} {index : Nat} {size : Nat} {statement : Statement}
    {left : List Statement} (hs : x.hub.session? index = none)
    (htask : x.tasks index = some ⟨size, statement :: left⟩) : x.step (.proceed index) = x := by
  simp [step, proceed, htask, Hub.execute, Hub.within, hs]

/-- The statements of a task are run one after another, each in the session that the one before it
has left. -/
lemma run_proceed (statements : List Statement) {x : Exchange} {index : Nat} {s : Session}
    {size : Nat} (hs : x.hub.session? index = some s)
    (htask : x.tasks index = some ⟨size, statements⟩) :
    ∃ records,
      x.run (List.replicate statements.length (.proceed index)) =
        { hub := x.hub.withSession index (Session.database.executeAll s statements).2
          tasks := Function.update x.tasks index (some ⟨size, []⟩)
          log := records ++ x.log } ∧
      records.reverse.flatMap (·.deed.bytes) =
        (Session.database.executeAll s statements).1.flatMap Response.line := by
  induction statements generalizing x s with
  | nil =>
    refine ⟨[], ?_, rfl⟩
    rw [Database.executeAll, Hub.withSession_self hs, ← htask, Function.update_eq_self]
    rfl
  | cons statement rest ih =>
    have hstep := step_proceed hs htask
    have hs' : (x.step (.proceed index)).hub.session? index =
        some (Session.database.execute s statement).2 := by
      rw [hstep]
      exact Hub.session?_withSession x.hub index hs _
    have htask' : (x.step (.proceed index)).tasks index = some ⟨size, rest⟩ := by
      rw [hstep]
      exact Function.update_self ..
    obtain ⟨records, hrun, hbytes⟩ := ih hs' htask'
    refine ⟨records ++ [⟨index, x.hub.stores.now, .ran statement
      (Session.database.execute s statement).1.line⟩], ?_, ?_⟩
    · rw [List.length_cons, List.replicate_succ, run, List.foldl_cons, ← run, hrun, hstep]
      simp [Hub.withSession_withSession, Database.executeAll]
    · simp only [List.reverse_append, List.reverse_singleton, List.singleton_append,
        List.flatMap_cons, hbytes, Database.executeAll]
      rfl

lemma step_proceed_returned {x : Exchange} {index : Nat} (size : Nat)
    (htask : x.tasks index = some ⟨size, []⟩) :
    x.step (.proceed index) = (x.record index (.returned size)).setTask index none := by
  simp only [step, proceed, htask]

lemma step_submit {x : Exchange} {index : Nat} {s : Session} (hs : x.hub.session? index = some s)
    (hidle : x.tasks index = none) (text : String) :
    x.step (.submit index text) =
      match parse text with
      | .error e =>
        (x.record index (.refused (Response.error e.message).line)).setTask index (some ⟨0, []⟩)
      | .ok statements => x.setTask index (some ⟨statements.length, statements⟩) := by
  simp [step, submit, hs, hidle]

/-- **A request that nothing interrupts** leaves the hub as `Hub.runRequest` does, sends the same
bytes, and comes to its end with the same number of statements. -/
theorem run_request {x : Exchange} {index : Nat} {s : Session}
    (hs : x.hub.session? index = some s) (hidle : x.tasks index = none) (text : String) :
    ∃ n executed records time,
      x.run (.submit index text :: List.replicate (n + 1) (.proceed index)) =
        { hub := (x.hub.runRequest index text).2
          tasks := x.tasks
          log := ⟨index, time, .returned executed⟩ :: (records ++ x.log) } ∧
      (x.hub.runRequest index text).1 =
        some (executed, records.reverse.flatMap (·.deed.bytes)) := by
  have hspec := Session.database.runRequest_succeeds Sink.perfect_reliable s (t := ()) trivial text
  have hsubmit := step_submit hs hidle text
  have hclear : Function.update x.tasks index none = x.tasks := by
    rw [← hidle, Function.update_eq_self]
  cases hp : parse text with
  | error e =>
    rw [hp] at hspec hsubmit
    rw [Hub.runRequest_of_session? hs hspec, Hub.withSession_self hs]
    refine ⟨0, 0, [⟨index, x.hub.stores.now, .refused (Response.error e.message).line⟩],
      x.hub.stores.now, ?_, by simp [Deed.bytes]⟩
    rw [run, List.foldl_cons, hsubmit, List.replicate_one, List.foldl_cons, List.foldl_nil,
      step_proceed_returned 0 (by simp [setTask])]
    simp [setTask, record, hclear]
  | ok statements =>
    rw [hp] at hspec hsubmit
    rw [Hub.runRequest_of_session? hs hspec]
    have hs' : (x.step (.submit index text)).hub.session? index = some s := by
      rw [hsubmit]
      exact hs
    have htask : (x.step (.submit index text)).tasks index =
        some ⟨statements.length, statements⟩ := by
      rw [hsubmit]
      exact Function.update_self ..
    obtain ⟨records, hrun, hbytes⟩ := run_proceed statements hs' htask
    refine ⟨statements.length, statements.length, records,
      (Session.database.executeAll s statements).2.stores.now, ?_, by rw [hbytes]⟩
    rw [run, List.foldl_cons, ← run, List.replicate_succ', run_append, hrun, hsubmit, run,
      List.foldl_cons, List.foldl_nil, step_proceed_returned statements.length (by simp)]
    simp [setTask, record, hclear]
    rfl

end Exchange

end ExpiringStore
