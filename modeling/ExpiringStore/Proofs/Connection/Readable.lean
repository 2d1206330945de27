import ExpiringStore.Proofs.Connection.Ledger
import ExpiringStore.Proofs.Exchange.Basic
import ExpiringStore.Proofs.Session.Textual

/-!
# Clients receive text

Any bytes may arrive on a connection, but a request is run only if they are UTF-8, and any text may
be run as a request.  As long as nothing but requests writes to the data, every value held in it is
UTF-8, and so is every line that answers a client (`clients_receive_text`).

That the values stay so is followed from a statement through requests and lines to what arrives on a
connection, and then along the events of a run.  A request that is cut short has run some of its
statements, which changes nothing about this; nor does it matter if the statements of several
requests take turns, as they do in an `Exchange`.
-/

namespace ExpiringStore

open Response (TextLine)

/-! ## Lines that arrive -/

/-- A line that is dealt with is answered by lines that can be read as text. -/
lemma Handled.textLine_answer {h : Handled} (hdata : h.session.stores.data.Textual) :
    ∀ line ∈ h.answer, TextLine line := by
  rw [answer]
  cases Utf8.decode? h.line with
  | none =>
    have herror : (Response.error "request is not valid UTF-8").Textual := trivial
    exact List.forall_mem_singleton.2 herror.textLine
  | some text => exact Session.textLine_linesOf hdata text

namespace Scene

variable {τ : Type u} (sink : Sink τ) {scene : Scene τ}

lemma textual_answer (h : scene.session.stores.data.Textual) (line : Bytes) :
    (scene.answer sink line).2.session.stores.data.Textual := by
  have hrun : (scene.runLine sink line).state.stores.data.Textual := by
    rw [runLine]
    cases Utf8.decode? line with
    | none => exact h
    | some text => exact Session.textual_runRequest sink h scene.sink text
  rw [answer]
  split_ifs
  · exact h
  · simp only
    split
    · exact hrun
    · exact hrun

lemma textual_answerAll (h : scene.session.stores.data.Textual) (lines : List Bytes) :
    (scene.answerAll sink lines).2.session.stores.data.Textual ∧
      ∀ dealt ∈ scene.handled sink lines, dealt.session.stores.data.Textual := by
  induction lines generalizing scene with
  | nil => exact ⟨h, fun dealt hdealt => absurd hdealt List.not_mem_nil⟩
  | cons line lines ih =>
    have hfirst := textual_answer sink h line
    rcases hanswer : scene.answer sink line with ⟨fault | fault, next⟩ <;> rw [hanswer] at hfirst
    · obtain ⟨hall, hhandled⟩ := of_answer_none sink lines hanswer
      obtain ⟨hdata, hdealt⟩ := ih hfirst
      rw [hall, hhandled]
      exact ⟨hdata, List.forall_mem_cons.2 ⟨h, hdealt⟩⟩
    · obtain ⟨hall, hhandled⟩ := of_answer_fault sink lines hanswer
      rw [hall, hhandled]
      exact ⟨hfirst, List.forall_mem_singleton.2 h⟩

end Scene

/-! ## Servers -/

namespace Server

variable {τ : Type u} (sink : Sink τ) {s : Server τ}

/-- Nothing but statements puts values into the data.  Beside what arrives on connections, requests
may be run in sessions of their own, over sinks of their own, and anything may happen to the stores
that adds nothing to the data. -/
def Event.WritesByStatements : Event τ → Prop
  | .meanwhile f =>
    (∃ (ω : Type) (out : Sink ω) (t : ω) (identity : Option Identity) (text : String),
      ∀ stores, f stores =
        (Session.database.runRequest out ⟨stores, identity⟩ t text).state.stores) ∨
    ∀ stores, Store.Within (f stores).data stores.data
  | _ => True

lemma textual_arrive (h : s.stores.data.Textual) (index : Nat) (arrival : Arrival) :
    (s.arrive sink index arrival).stores.data.Textual := by
  rw [arrive]
  cases hc : s.connection? index with
  | none => exact h
  | some c =>
    obtain ⟨-, hopen⟩ := Option.filter_eq_some_iff.1 hc
    simp only [Connection.receive, hopen, if_true, Scene.receive_eq]
    exact (Scene.textual_answerAll sink h _).1

/-- **One event** keeps the values UTF-8. -/
lemma textual_step (h : s.stores.data.Textual) {event : Event τ}
    (hevent : event.WritesByStatements) : (s.step sink event).stores.data.Textual := by
  cases event with
  | accept t => exact h
  | arrive index arrival => exact textual_arrive sink h index arrival
  | alter index f =>
    rw [step, alter]
    cases s.connection? index <;> exact h
  | meanwhile f =>
    rcases hevent with ⟨ω, out, t, identity, text, hf⟩ | hwithin
    · rw [step, hf]
      exact Session.textual_runRequest out h t text
    · exact h.of_within (hwithin s.stores)

/-- The lines that are dealt with at a moment are found with values that are UTF-8. -/
lemma textual_handled {m : Moment τ} (h : m.before.stores.data.Textual) :
    ∀ dealt ∈ m.handled sink, dealt.session.stores.data.Textual := by
  intro dealt hdealt
  obtain ⟨⟨index, c, arrival⟩, -, hmem⟩ := List.mem_flatMap.1 hdealt
  have hscene : (Moment.scene m.before c arrival).session.stores.data.Textual := h
  exact (Scene.textual_answerAll sink hscene _).2 dealt hmem

/-- **A run** keeps the values UTF-8 at each of its moments and to its end. -/
lemma textual_run (h : s.stores.data.Textual) {events : List (Event τ)}
    (hevents : ∀ event ∈ events, event.WritesByStatements) :
    (s.run sink events).stores.data.Textual ∧
      ∀ m ∈ s.moments sink events, m.before.stores.data.Textual := by
  induction events generalizing s with
  | nil => exact ⟨h, fun m hm => absurd hm List.not_mem_nil⟩
  | cons event events ih =>
    obtain ⟨hevent, hrest⟩ := List.forall_mem_cons.1 hevents
    obtain ⟨hdata, hmoments⟩ := ih (textual_step sink h hevent) hrest
    exact ⟨hdata, List.forall_mem_cons.2 ⟨h, hmoments⟩⟩

end Server

/-! ## Requests in any interleaving -/

namespace Exchange

variable {x : Exchange}

/-- The values held are UTF-8, and whatever clients were sent can be read as text. -/
structure Readable (x : Exchange) : Prop where
  data : x.hub.stores.data.Textual
  log : ∀ r ∈ x.log, TextLine r.deed.bytes

lemma Readable.record (h : x.Readable) (index : Nat) (deed : Deed) (hdeed : TextLine deed.bytes) :
    (x.record index deed).Readable :=
  ⟨h.data, List.forall_mem_cons.2 ⟨hdeed, h.log⟩⟩

lemma textLine_nil : TextLine [] := ⟨Utf8.valid_encode "", List.not_mem_nil⟩

lemma Readable.submit (h : x.Readable) (index : Nat) (text : String) :
    (x.submit index text).Readable := by
  rw [Exchange.submit]
  split_ifs
  · exact h
  cases parse text with
  | error e =>
    have herror : (Response.error e.message).Textual := trivial
    have hrecord := h.record index (.refused _) herror.textLine
    exact ⟨hrecord.data, hrecord.log⟩
  | ok statements => exact ⟨h.data, h.log⟩

lemma Readable.proceed (h : x.Readable) (index : Nat) : (x.step (.proceed index)).Readable := by
  cases htask : x.tasks index with
  | none =>
    have hidle : x.step (.proceed index) = x := by simp only [step, Exchange.proceed, htask]
    rwa [hidle]
  | some task =>
    obtain ⟨size, left⟩ := task
    cases left with
    | nil =>
      rw [step_proceed_returned size htask]
      have hrecord := h.record index (.returned size) textLine_nil
      exact ⟨hrecord.data, hrecord.log⟩
    | cons statement left =>
      cases hs : x.hub.session? index with
      | none => rwa [step_proceed_absent hs htask]
      | some s =>
        have hdata : s.stores.data.Textual := by
          rw [Hub.stores_of_session? hs]
          exact h.data
        obtain ⟨hafter, hresponse⟩ := Session.textual_execute hdata statement
        rw [step_proceed hs htask]
        exact ⟨hafter, List.forall_mem_cons.2 ⟨hresponse.textLine, h.log⟩⟩

/-- **One event** of an exchange. -/
lemma Readable.step (h : x.Readable) (event : Event) : (x.step event).Readable := by
  cases event with
  | join => exact ⟨h.data, h.log⟩
  | leave index =>
    refine ⟨?_, h.log⟩
    simp only [Exchange.step, aside, setTask, Hub.step, Hub.leave]
    cases x.hub.session? index <;> exact h.data
  | register username password => exact ⟨h.data, h.log⟩
  | unregister username => exact ⟨h.data, h.log⟩
  | elapse d => exact ⟨h.data, h.log⟩
  | sweep => exact ⟨h.data.of_within (x.hub.stores.data.within_removeExpired _), h.log⟩
  | submit index text => exact h.submit index text
  | proceed index => exact h.proceed index
  | abandon index => exact ⟨h.data, h.log⟩

lemma Readable.run (h : x.Readable) (events : List Event) : (x.run events).Readable := by
  induction events generalizing x with
  | nil => exact h
  | cons event events ih => exact ih (h.step event)

end Exchange

/-- **Clients receive text.**  Requests are run over data in which every value is UTF-8, for example
over data without entries, and nothing else puts values into it.

* Connections are taken up, any bytes arrive on them, and in between any texts are run as requests
  in sessions of their own.  Then every value held is UTF-8; every line that answers what arrived is
  UTF-8 without a carriage return; and so is every line that answers any text which is then run as a
  request in any session.
* The same holds if the statements of requests in several sessions take turns, of the values held
  and of all that clients were sent.
* Whatever response has values that are UTF-8, its text for people and a line feed are encoded as
  the line of the response, so nothing was replaced in that text. -/
theorem clients_receive_text {stores : Stores} (hstores : stores.data.Textual) :
    (∀ {τ : Type u} (sink : Sink τ) (events : List (Server.Event τ)),
      (∀ event ∈ events, event.WritesByStatements) →
      let s := (Server.start stores).run sink events
      s.stores.data.Textual ∧
      (∀ m ∈ (Server.start stores).moments sink events, ∀ dealt ∈ m.handled sink,
        ∀ line ∈ dealt.answer, TextLine line) ∧
      ∀ identity text, ∀ line ∈ Session.database.linesOf ⟨s.stores, identity⟩ text,
        TextLine line) ∧
    (∀ (seats : List Seat) (events : List Exchange.Event),
      let x := (Exchange.start ⟨stores, seats⟩).run events
      x.hub.stores.data.Textual ∧ ∀ r ∈ x.log, TextLine r.deed.bytes) ∧
    ∀ r : Response, r.Textual → Utf8.encode (r.display ++ "\n") = r.line := by
  refine ⟨fun {τ} sink events hevents => ?_, fun seats events => ?_, fun r hr => hr.encode_display⟩
  · have hstart : (Server.start stores : Server τ).stores.data.Textual := hstores
    obtain ⟨hdata, hmoments⟩ := Server.textual_run sink hstart hevents
    refine ⟨hdata, fun m hm dealt hdealt => ?_, fun identity text => ?_⟩
    · exact Handled.textLine_answer (Server.textual_handled sink (hmoments m hm) dealt hdealt)
    · exact Session.textLine_linesOf hdata text
  · have hstart : (Exchange.start ⟨stores, seats⟩).Readable :=
      ⟨hstores, fun r hr => absurd hr List.not_mem_nil⟩
    obtain ⟨hdata, hlog⟩ := hstart.run events
    exact ⟨hdata, hlog⟩

/-- A client stores a backslash and a character of two bytes, and a request in a session of its own
stores a carriage return.  Then a line arrives that is not UTF-8, a sweep passes over the data, and
both values are read. -/
theorem clients_receive_text_after_bad_line :
    let stores := Stores.empty .mixing .never .never .zero
    let aside (stores : Stores) : Stores :=
      (Session.database.runRequest Sink.perfect ⟨stores, none⟩ () "SET b \"\r\"").state.stores
    let sweep (stores : Stores) : Stores :=
      { stores with data := (stores.data.removeExpired stores.now).2 }
    let events : List (Server.Event Peer) :=
      [.accept .fresh, .arrive 0 (.bytes (Utf8.encode "SET a é\\\n")), .meanwhile aside,
        .arrive 0 (.bytes [0xC3, 0x0A]), .meanwhile sweep,
        .arrive 0 (.bytes (Utf8.encode "GET a b\n"))]
    let s := (Server.start stores).run Peer.sink events
    let shown := Response.values [some (Utf8.encode "é\\"), some [0x0D]]
    stores.data.Textual ∧ (∀ event ∈ events, event.WritesByStatements) ∧
    s.received 0 =
      Utf8.encode "Success\nERROR: request is not valid UTF-8\n[\"é\\\\\", \"\\r\"]\n" ∧
    s.stores.data.Textual ∧ shown.Textual ∧ Utf8.encode (shown.display ++ "\n") = shown.line := by
  intro stores aside sweep events s shown
  have hstores : stores.data.Textual := Store.textual_empty _ _
  have hevents : ∀ event ∈ events, event.WritesByStatements := by
    simp only [events, List.forall_mem_cons]
    refine ⟨trivial, trivial, .inl ?_, trivial, .inr fun stores => ?_, trivial, nofun⟩
    · exact ⟨Unit, Sink.perfect, (), none, "SET b \"\r\"", fun _ => rfl⟩
    · exact stores.data.within_removeExpired stores.now
  have hshown : shown.Textual := by
    intro value hvalue
    have hcases : value = Utf8.encode "é\\" ∨ value = [0x0D] := by simpa using hvalue
    rcases hcases with rfl | rfl <;> decide
  obtain ⟨hserver, -, hdisplay⟩ := clients_receive_text hstores
  exact ⟨hstores, hevents, by decide +kernel, (hserver Peer.sink events hevents).1, hshown,
    hdisplay shown hshown⟩

end ExpiringStore
