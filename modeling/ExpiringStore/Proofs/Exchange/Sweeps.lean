import ExpiringStore.Proofs.Exchange.Basic
import ExpiringStore.Proofs.Session.Statements
import ExpiringStore.Proofs.Store.Alike

/-!
# Sweeps cannot be noticed

Sweeps may pass over the data at any time between two statements.  They take away entries that have
expired, so the data really differ from what they would be without the sweeps, and they go on to
differ: a write may find something to replace in one run and nothing in the other.  But no client
can tell.  The two runs are `Indistinct`: whatever was done for clients is the same, with every byte
they were sent, and so are the requests under way, the sessions, the accounts and the clock; the
data are alike in the sense of `Store.AlikeAt`.

Two indistinct exchanges differ in their data only, so each event is looked at once, for an exchange
whose data are replaced by others (`stepsAlike`).  A sweep inserted on one side keeps the
exchanges indistinct, and the rest is an induction over the ways to insert sweeps.
-/

namespace ExpiringStore

/-! ## A session over other data -/

namespace Session

lemma execute_auth_withData (s : Session) (data : Store Bytes) (username password : String) :
    database.execute (s.withData data) (.auth username password) =
      ((database.execute s (.auth username password)).1,
        (database.execute s (.auth username password)).2.withData data) := by
  simp only [Database.execute, database, authenticate, withData]
  split
  · rfl
  · split <;> rfl

/-- A statement is answered the same over data that are alike, and leaves data that are alike. -/
lemma exists_execute_withData (s : Session) {data : Store Bytes}
    (h : s.stores.data.AlikeAt s.stores.now data) (statement : Statement) :
    ∃ data',
      database.execute (s.withData data) statement =
        ((database.execute s statement).1, (database.execute s statement).2.withData data') ∧
      (database.execute s statement).2.stores.data.AlikeAt
        (database.execute s statement).2.stores.now data' := by
  cases statement with
  | set key value ttl =>
    rw [execute_set, execute_set]
    exact ⟨_, rfl, h.set (Utf8.encode key) (Utf8.encode value) (ttl.map .after)⟩
  | get keys =>
    rw [execute_get, execute_get]
    refine ⟨_, ?_, h.getAll (keys.map Utf8.encode)⟩
    simp only [data_withData, now_withData, h.visible_eq]
    rfl
  | delete keys =>
    rw [execute_delete, execute_delete]
    exact ⟨_, rfl, h.deleteAll (keys.map Utf8.encode)⟩
  | auth username password =>
    refine ⟨data, s.execute_auth_withData data username password, ?_⟩
    rw [(s.execute_auth username password).1, (s.execute_auth username password).2]
    exact h

end Session

/-! ## A hub over other data -/

namespace Hub

def withData (h : Hub) (data : Store Bytes) : Hub :=
  { h with stores := { h.stores with data := data } }

lemma session?_withData (h : Hub) (data : Store Bytes) (index : Nat) :
    (h.withData data).session? index = (h.session? index).map (·.withData data) := by
  have hseats : (h.withData data).seats = h.seats := rfl
  rw [session?, hseats, session?]
  rcases h.seats[index]? with _ | _ | _ <;> rfl

lemma leave_withData (h : Hub) (data : Store Bytes) (index : Nat) :
    (h.withData data).leave index = ((h.leave index).1, (h.leave index).2.withData data) := by
  rw [leave, leave, session?_withData]
  cases h.session? index <;> rfl

lemma stores_leave (h : Hub) (index : Nat) : (h.leave index).2.stores = h.stores := by
  rw [leave]
  cases h.session? index <;> rfl

end Hub

namespace Exchange

def withData (x : Exchange) (data : Store Bytes) : Exchange :=
  { x with hub := x.hub.withData data }

/-- The exchanges differ in nothing but the data, and there in nothing that could be read. -/
structure Indistinct (x y : Exchange) : Prop where
  log_eq : x.log = y.log
  tasks_eq : x.tasks = y.tasks
  seats_eq : x.hub.seats = y.hub.seats
  users_eq : x.hub.stores.users = y.hub.stores.users
  now_eq : x.hub.stores.now = y.hub.stores.now
  alike : x.hub.stores.data.AlikeAt x.hub.stores.now y.hub.stores.data

variable {x y : Exchange} {data : Store Bytes}

lemma indistinct_withData (h : x.hub.stores.data.AlikeAt x.hub.stores.now data) :
    Indistinct x (x.withData data) :=
  ⟨rfl, rfl, rfl, rfl, rfl, h⟩

lemma Indistinct.eq_withData (h : Indistinct x y) : y = x.withData y.hub.stores.data := by
  obtain ⟨⟨⟨data, users, now⟩, seats⟩, tasks, log⟩ := y
  simp only [withData, Hub.withData, h.log_eq, h.tasks_eq, h.seats_eq, h.users_eq, h.now_eq]

/-! ## One event -/

/-- What an event comes to over other data that are alike. -/
def StepsAlike (x : Exchange) (data : Store Bytes) (event : Event) : Prop :=
  ∃ data', (x.withData data).step event = (x.step event).withData data' ∧
    (x.step event).hub.stores.data.AlikeAt (x.step event).hub.stores.now data'

lemma stepsAlike_leave (h : x.hub.stores.data.AlikeAt x.hub.stores.now data) (index : Nat) :
    StepsAlike x data (.leave index) := by
  have hhub (x : Exchange) : x.step (.leave index) =
      { x with hub := (x.hub.leave index).2 }.setTask index none := rfl
  refine ⟨data, ?_, ?_⟩
  · rw [hhub, hhub, withData, Hub.leave_withData]
    rfl
  · rw [hhub, setTask, Hub.stores_leave]
    exact h

lemma stepsAlike_submit (h : x.hub.stores.data.AlikeAt x.hub.stores.now data) (index : Nat)
    (text : String) : StepsAlike x data (.submit index text) := by
  have hsession : ((x.withData data).hub.session? index).isNone =
      (x.hub.session? index).isNone := by
    rw [withData, Hub.session?_withData, Option.isNone_map]
  have htasks : (x.withData data).tasks = x.tasks := rfl
  refine ⟨data, ?_, ?_⟩
  · simp only [step, submit, hsession, htasks]
    split
    · rfl
    · cases parse text <;> rfl
  · simp only [step, submit]
    split
    · exact h
    · cases parse text <;> exact h

lemma stepsAlike_proceed (h : x.hub.stores.data.AlikeAt x.hub.stores.now data) (index : Nat) :
    StepsAlike x data (.proceed index) := by
  cases htask : x.tasks index with
  | none =>
    have hidle (y : Exchange) (hy : y.tasks index = none) : y.step (.proceed index) = y := by
      simp only [step, proceed, hy]
    rw [StepsAlike, hidle x htask, hidle (x.withData data) htask]
    exact ⟨data, rfl, h⟩
  | some task =>
    obtain ⟨size, left⟩ := task
    cases left with
    | nil =>
      rw [StepsAlike, step_proceed_returned size htask,
        step_proceed_returned (x := x.withData data) size htask]
      exact ⟨data, rfl, h⟩
    | cons statement left =>
      have hother := x.hub.session?_withData data index
      cases hs : x.hub.session? index with
      | none =>
        rw [hs] at hother
        rw [StepsAlike, step_proceed_absent hs htask,
          step_proceed_absent (x := x.withData data) hother htask]
        exact ⟨data, rfl, h⟩
      | some s =>
        rw [hs] at hother
        rw [← Hub.stores_of_session? hs] at h
        obtain ⟨data', hexecute, halike⟩ := s.exists_execute_withData h statement
        rw [StepsAlike, step_proceed hs htask,
          step_proceed (x := x.withData data) hother htask, hexecute]
        exact ⟨data', rfl, halike⟩

/-- **One event, with or without what sweeps took away.** -/
theorem stepsAlike (h : x.hub.stores.data.AlikeAt x.hub.stores.now data) (event : Event) :
    StepsAlike x data event := by
  cases event with
  | join => exact ⟨data, rfl, h⟩
  | leave index => exact stepsAlike_leave h index
  | register username password => exact ⟨data, rfl, h⟩
  | unregister username => exact ⟨data, rfl, h⟩
  | elapse d => exact ⟨data, rfl, h.mono (Instant.le_later _ d)⟩
  | sweep => exact ⟨_, rfl, h.removeExpired_left.removeExpired_right⟩
  | submit index text => exact stepsAlike_submit h index text
  | proceed index => exact stepsAlike_proceed h index
  | abandon index => exact ⟨data, rfl, h⟩

lemma Indistinct.step (h : Indistinct x y) (event : Event) :
    Indistinct (x.step event) (y.step event) := by
  obtain ⟨data, hstep, halike⟩ := stepsAlike h.alike event
  rw [h.eq_withData, hstep]
  exact indistinct_withData halike

/-- A sweep that happens on one side only cannot be noticed. -/
lemma Indistinct.sweep_right (h : Indistinct x y) : Indistinct x (y.step .sweep) := by
  refine ⟨h.log_eq, h.tasks_eq, h.seats_eq, h.users_eq, h.now_eq, ?_⟩
  have halike := h.alike
  rw [h.now_eq] at halike ⊢
  exact halike.removeExpired_right

/-! ## Runs -/

/-- The second list of events is the first one with sweeps inserted. -/
inductive Swept : List Event → List Event → Prop
  | nil : Swept [] []
  | event (e : Event) {plain swept : List Event} :
      Swept plain swept → Swept (e :: plain) (e :: swept)
  | sweep {plain swept : List Event} : Swept plain swept → Swept plain (.sweep :: swept)

lemma Swept.indistinct_run {plain swept : List Event} (h : Swept plain swept)
    (hxy : Indistinct x y) : Indistinct (x.run plain) (y.run swept) := by
  induction h generalizing x y with
  | nil => exact hxy
  | event e _ ih => exact ih (hxy.step e)
  | sweep _ ih => exact ih hxy.sweep_right

/-- A point of the run with the sweeps has a corresponding point in the run without them. -/
lemma Swept.exists_append {plain front rest : List Event} (h : Swept plain (front ++ rest)) :
    ∃ before after, plain = before ++ after ∧ Swept before front ∧ Swept after rest := by
  induction front generalizing plain with
  | nil => exact ⟨[], plain, rfl, .nil, h⟩
  | cons first front ih =>
    rw [List.cons_append] at h
    cases h with
    | event _ h =>
      obtain ⟨before, after, rfl, hfront, hrest⟩ := ih h
      exact ⟨first :: before, after, rfl, .event first hfront, hrest⟩
    | sweep h =>
      obtain ⟨before, after, rfl, hfront, hrest⟩ := ih h
      exact ⟨before, after, rfl, .sweep hfront, hrest⟩

/-- **Sweeps cannot be noticed.**  Sweeps are inserted anywhere between the events of a run.  Then
everything that was done for clients is the same as without them, and so are the sessions, the
accounts and what is live in the data; and this holds at every point of the run, compared with the
corresponding point of the run without the sweeps. -/
theorem sweeps_indistinct (x : Exchange) {plain swept : List Event} (h : Swept plain swept) :
    Indistinct (x.run plain) (x.run swept) ∧
    ∀ front rest, swept = front ++ rest →
      ∃ before after, plain = before ++ after ∧ Swept before front ∧ Swept after rest ∧
        Indistinct (x.run before) (x.run front) := by
  have hsame : Indistinct x x := ⟨rfl, rfl, rfl, rfl, rfl, .refl _ _⟩
  refine ⟨h.indistinct_run hsame, ?_⟩
  rintro front rest rfl
  obtain ⟨before, after, hplain, hfront, hrest⟩ := h.exists_append
  exact ⟨before, after, hplain, hfront, hrest, hfront.indistinct_run hsame⟩

/-- A value expires and is written anew.  With a sweep in between there is nothing left to replace,
and the sweep has counted it. -/
theorem sweep_before_overwrite :
    let x := start ⟨.empty .mixing .never .never .zero, [.taken none, .taken none]⟩
    let before : List Event :=
      [.submit 0 "SET k a 1000; GET k", .proceed 0, .elapse (.ofSeconds 1)]
    let after : List Event := [.submit 1 "SET k b; GET k", .proceed 1, .proceed 0, .proceed 1]
    let plain := before ++ after
    let swept := before ++ .sweep :: after
    Swept plain swept ∧
    (x.run plain).hub.stores.data.counters.expired = 0 ∧
    (x.run swept).hub.stores.data.counters.expired = 1 ∧
    (x.run plain).log = (x.run swept).log ∧
    (x.run swept).log.head?.map (·.deed) = some (.ran (.get ["k"]) (Utf8.encode "[\"b\"]\n")) := by
  intro x before after plain swept
  have hsame (events : List Event) : Swept events events := by
    induction events with
    | nil => exact .nil
    | cons e _ ih => exact .event e ih
  have hswept : Swept plain swept :=
    .event _ (.event _ (.event _ (.sweep (hsame after))))
  refine ⟨hswept, by decide +kernel, by decide +kernel, ?_, by decide +kernel⟩
  exact (sweeps_indistinct x hswept).1.log_eq

end Exchange

end ExpiringStore
