import ExpiringStore.Hub.Step
import ExpiringStore.Proofs.Request.Deliver
import ExpiringStore.Proofs.Session.Effects

/-!
# Sessions of a hub, and what is done in them

What is done in a session changes the stores and whom that session is known as; the other sessions
see the stores change and nothing else.  A step that names a session which is not there does
nothing.

A request is nothing but its statements: the hub is left as if they had been run one by one, and the
answer consists of the lines of their responses (`step_request`, `run_parts`).
-/

namespace ExpiringStore.Hub

/-! ## Sessions -/

variable {α : Type u}

lemma stores_of_session? {h : Hub} {index : Nat} {s : Session} (hs : h.session? index = some s) :
    s.stores = h.stores := by
  unfold session? at hs
  split at hs
  · cases hs
    rfl
  · cases hs

lemma stores_withSession (h : Hub) (index : Nat) (s : Session) :
    (h.withSession index s).stores = s.stores := rfl

lemma session?_withSession (h : Hub) (index : Nat) {s : Session} (hs : h.session? index = some s)
    (s' : Session) : (h.withSession index s').session? index = some s' := by
  have hindex : index < h.seats.length := by
    by_contra hout
    rw [session?, List.getElem?_eq_none (Nat.le_of_not_lt hout)] at hs
    cases hs
  simp [session?, withSession, hindex]

lemma session?_withSession_of_ne (h : Hub) {index other : Nat} (hne : index ≠ other)
    (s : Session) :
    (h.withSession other s).session? index =
      (h.session? index).map fun own => ⟨s.stores, own.identity⟩ := by
  have hseat : (h.withSession other s).seats[index]? = h.seats[index]? :=
    List.getElem?_set_ne hne.symm
  rw [session?, hseat, session?]
  rcases h.seats[index]? with _ | _ | _ <;> rfl

lemma session?_of_taken {h : Hub} {index : Nat} {identity : Option Identity}
    (hseat : h.seats[index]? = some (.taken identity)) :
    h.session? index = some ⟨h.stores, identity⟩ := by
  simp only [session?, hseat]

lemma taken_of_session? {h : Hub} {index : Nat} {s : Session} (hs : h.session? index = some s) :
    h.seats[index]? = some (.taken s.identity) := by
  unfold session? at hs
  split at hs
  · rename_i identity hseat
    cases hs
    exact hseat
  · cases hs

lemma withSession_self {h : Hub} {index : Nat} {s : Session} (hs : h.session? index = some s) :
    h.withSession index s = h := by
  unfold session? at hs
  split at hs
  · rename_i identity hseat
    cases hs
    obtain ⟨hindex, hget⟩ := List.getElem?_eq_some_iff.1 hseat
    rw [withSession, ← hget, List.set_getElem_self]
  · cases hs

lemma withSession_withSession (h : Hub) (index : Nat) (s s' : Session) :
    (h.withSession index s).withSession index s' = h.withSession index s' := by
  simp [withSession]

/-- Of the stores only those of the last session matter. -/
lemma withSession_comm (h : Hub) {index other : Nat} (hne : index ≠ other)
    (stores before before' : Stores) (a b : Option Identity) :
    (h.withSession index ⟨before, a⟩).withSession other ⟨stores, b⟩ =
      (h.withSession other ⟨before', b⟩).withSession index ⟨stores, a⟩ := by
  simp only [withSession, List.set_comm _ _ hne]

/-- The session that a step happens in. -/
def Step.session? : Step → Option Nat
  | .leave index => some index
  | .request index _ => some index
  | .statement index _ => some index
  | _ => none

/-- What happens in a session concerns the seat of that session only. -/
lemma seats_within_of_ne (h : Hub) {index other : Nat} (hne : index ≠ other)
    (act : Session → α × Session) : (h.within other act).2.seats[index]? = h.seats[index]? := by
  rw [within]
  cases h.session? other with
  | none => rfl
  | some s => exact List.getElem?_set_ne hne.symm

/-! ## Statements -/

lemma execute_of_session? {h : Hub} {index : Nat} {s : Session} (hs : h.session? index = some s)
    (statement : Statement) :
    h.execute index statement =
      (some (Session.database.execute s statement).1,
        h.withSession index (Session.database.execute s statement).2) := by
  simp [execute, within, hs]

lemma step_statement {h : Hub} {index : Nat} {s : Session} (hs : h.session? index = some s)
    (statement : Statement) :
    h.step (.statement index statement) =
      (.response (Session.database.execute s statement).1,
        h.withSession index (Session.database.execute s statement).2) := by
  simp only [step, execute_of_session? hs]

/-- Nothing is run in a session that is not there. -/
lemma step_statement_absent {h : Hub} {index : Nat} (hs : h.session? index = none)
    (statement : Statement) : h.step (.statement index statement) = (.absent, h) := by
  simp only [step, execute, within, hs]

lemma step_statement_eq {h : Hub} {index : Nat} {s : Session} (hs : h.session? index = some s)
    (statement : Statement) :
    h.step (.statement index statement) =
      (.response (statement.response h.stores), h.withSession index (s.after statement)) := by
  rw [step_statement hs, Session.execute_eq, stores_of_session? hs]

/-! ## Runs -/

lemma run_cons (h : Hub) (first : Step) (rest : List Step) :
    h.run (first :: rest) =
      ((h.step first).1 :: ((h.step first).2.run rest).1, ((h.step first).2.run rest).2) := rfl

lemma run_append (h : Hub) (a b : List Step) :
    h.run (a ++ b) = ((h.run a).1 ++ ((h.run a).2.run b).1, ((h.run a).2.run b).2) := by
  induction a generalizing h with
  | nil => rfl
  | cons first a ih => rw [List.cons_append, run_cons, ih, run_cons, List.cons_append]

/-- Statements that are run one by one in a session. -/
lemma run_statements {h : Hub} {index : Nat} {s : Session} (hs : h.session? index = some s)
    (statements : List Statement) :
    h.run (statements.map (.statement index)) =
      ((Session.database.executeAll s statements).1.map .response,
        h.withSession index (Session.database.executeAll s statements).2) := by
  induction statements generalizing h s with
  | nil => exact congrArg (Prod.mk []) (withSession_self hs).symm
  | cons statement rest ih =>
    have hrest := ih (session?_withSession h index hs (Session.database.execute s statement).2)
    rw [List.map_cons, run_cons, step_statement hs, hrest, withSession_withSession]
    rfl

lemma run_statements_absent {h : Hub} {index : Nat} (hs : h.session? index = none)
    (statements : List Statement) :
    (h.run (statements.map (.statement index))).2 = h := by
  induction statements with
  | nil => rfl
  | cons statement rest ih => rw [List.map_cons, run_cons, step_statement_absent hs, ih]

/-! ## Requests -/

lemma runRequest_of_session? {h : Hub} {index : Nat} {s : Session} {text : String} {executed : Nat}
    {state : Session} {bytes : Bytes} (hs : h.session? index = some s)
    (hrun : (Session.database.runRequest Sink.perfect s () text).Succeeds (fun _ => True) executed
      state bytes) :
    h.runRequest index text = (some (executed, bytes), h.withSession index state) := by
  simp only [runRequest, within, hs, hrun.result_eq, hrun.state_eq, hrun.bytes_eq]
  rfl

/-- What a client is sent. -/
def Answer.bytes : Answer → Bytes
  | .response r => r.line
  | .answered _ bytes => bytes
  | _ => []

lemma step_request_error {h : Hub} {index : Nat} {s : Session} (hs : h.session? index = some s)
    {text : String} {e : ParseError} (hparse : parse text = .error e) :
    h.step (.request index text) = (.answered 0 (Response.error e.message).line, h) := by
  have hspec := Session.database.runRequest_succeeds_of_error Sink.perfect_reliable s
    (t := ()) trivial hparse
  simp only [step, runRequest_of_session? hs hspec, withSession_self hs]

/-- **A request is nothing but its statements.** -/
theorem step_request {h : Hub} {index : Nat} {s : Session} (hs : h.session? index = some s)
    {text : String} {statements : List Statement} (hparse : parse text = .ok statements) :
    h.step (.request index text) =
      (.answered statements.length
          ((h.run (statements.map (.statement index))).1.flatMap Answer.bytes),
        (h.run (statements.map (.statement index))).2) := by
  have hspec := Session.database.runRequest_succeeds_of_ok Sink.perfect_reliable s
    (t := ()) trivial hparse
  have hbytes (responses : List Response) :
      (responses.map Answer.response).flatMap Answer.bytes = responses.flatMap Response.line := by
    rw [List.flatMap_map]
    rfl
  rw [run_statements hs, hbytes]
  simp only [step, runRequest_of_session? hs hspec]

lemma step_request_absent {h : Hub} {index : Nat} (hs : h.session? index = none) (text : String) :
    h.step (.request index text) = (.absent, h) := by
  simp only [step, runRequest, within, hs]

/-- What a step consists of: a request of its statements, and any other step of itself. -/
def Step.parts : Step → List Step
  | .request index text =>
    match parse text with
    | .ok statements => statements.map (.statement index)
    | .error _ => []
  | step => [step]

lemma run_parts_step (h : Hub) (step : Step) : (h.run step.parts).2 = (h.step step).2 := by
  cases step with
  | request index text =>
    cases hs : h.session? index with
    | none =>
      rw [step_request_absent hs, Step.parts]
      cases parse text with
      | error e => rfl
      | ok statements => exact run_statements_absent hs statements
    | some s =>
      cases hparse : parse text with
      | error e =>
        rw [step_request_error hs hparse]
        simp only [Step.parts, hparse]
        rfl
      | ok statements =>
        rw [step_request hs hparse]
        simp only [Step.parts, hparse]
  | _ => rfl

/-- A run leaves the hub as the run of its parts does. -/
theorem run_parts (h : Hub) (steps : List Step) :
    (h.run (steps.flatMap Step.parts)).2 = (h.run steps).2 := by
  induction steps generalizing h with
  | nil => rfl
  | cons first steps ih => rw [List.flatMap_cons, run_append, run_parts_step, ih, run_cons]

end ExpiringStore.Hub
