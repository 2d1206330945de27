import ExpiringStore.Connection.Means
import ExpiringStore.Proofs.Request.Attempts

/-!
# The steps of a connection, one after the other

`Means.receive` leaves open what happens between its steps.  Where nothing does, they are the steps
of a scene, and what they come to is `Scene.receive`: the same ending, the same rest, and the same
session, ledger and sink (`Means.receive_ofSink`).  This is so for every sink, and for one that
fails somewhere the steps stop where the scene does.

Each definition is compared with its counterpart.  A request reports the lengths of the lines that
it passed on, and its counterpart counts what the sink has taken; the two agree because a line that
was passed on has been taken whole.
-/

namespace ExpiringStore

/-! ## The next statement -/

namespace Database

variable {σ : Type u} {τ : Type v} {db : Database σ} {sink : Sink τ} {s : σ} {t : τ}
  {statement : Statement}

lemma replyAll_cons_of_error {fault : Fault}
    (h : (reply sink (db.execute s statement).2 t (db.execute s statement).1).result =
      .error fault) (rest : List Statement) :
    db.replyAll sink s t (statement :: rest) =
      reply sink (db.execute s statement).2 t (db.execute s statement).1 := by
  rw [replyAll]
  simp only [h]

lemma replyAll_cons_of_ok {first : Outcome Unit σ τ}
    (hfirst : reply sink (db.execute s statement).2 t (db.execute s statement).1 = first)
    (h : first.result = .ok ()) (rest : List Statement) :
    db.replyAll sink s t (statement :: rest) =
      { db.replyAll sink (db.execute s statement).2 first.sink rest with
        events := first.events ++
          (db.replyAll sink (db.execute s statement).2 first.sink rest).events } := by
  subst hfirst
  rw [replyAll]
  simp only [h]

end Database

namespace Means

/-! ## Computations that may fail, in a state -/

section

variable {σ : Type} {x : ExceptT Fault (StateM σ) α} {s s' : σ}

lemma run_bind_of_ok {a : α} (h : x.run.run s = (.ok a, s')) (f : α → ExceptT Fault (StateM σ) β) :
    (x >>= f).run.run s = (f a).run.run s' := by
  rw [ExceptT.run_bind, StateT.run_bind, h]
  rfl

lemma run_bind_of_error {fault : Fault} (h : x.run.run s = (.error fault, s'))
    (f : α → ExceptT Fault (StateM σ) β) : (x >>= f).run.run s = (.error fault, s') := by
  rw [ExceptT.run_bind, StateT.run_bind, h]
  rfl

lemma run_bind_pure {r : Except Fault α} (h : x.run.run s = (r, s')) (f : α → β) :
    (x >>= fun a => pure (f a)).run.run s = (r.map f, s') := by
  cases r with
  | error fault => exact run_bind_of_error h _
  | ok a => exact run_bind_of_ok h _

end

/-! ## Requests -/

variable {τ : Type} (sink : Sink τ)

/-- Steps taken in a scene come to the outcome of a request, and report its result and the number of
bytes taken. -/
def ComesTo (x : ExceptT Fault (StateM (Scene τ)) β) (scene : Scene τ) (o : Outcome α Session τ)
    (report : α → Nat → β) : Prop :=
  x.run.run scene =
    (o.result.map fun a => report a (Sink.bytesOf o.events).length,
      { scene with session := o.state, sink := o.sink })

/-- A statement is run in the session of the scene, and does not fail. -/
lemma run_execute (scene : Scene τ) (statement : Statement) :
    (liftM ((ofSink sink).execute statement) : ExceptT Fault (StateM (Scene τ)) Response).run.run
        scene =
      (.ok (Session.database.execute scene.session statement).1,
        { scene with session := (Session.database.execute scene.session statement).2 }) := rfl

/-- One response.  Its length is reported, which is what the sink has taken of it. -/
lemma comesTo_reply (scene : Scene τ) (r : Response) :
    ComesTo ((ofSink sink).reply r) scene (Database.reply sink scene.session scene.sink r)
      fun _ written => written := by
  have hpass : ((ofSink sink).pass r.line).run.run scene =
      ((sink.writeLine scene.sink r.line).result,
        { scene with sink := (sink.writeLine scene.sink r.line).sink }) := rfl
  rw [ComesTo, reply, run_bind_pure hpass, Database.reply]
  cases hresult : (sink.writeLine scene.sink r.line).result with
  | error fault => rfl
  | ok _ =>
    simp only [sink.bytesOf_writeLine_of_ok hresult]

lemma comesTo_replyAll (scene : Scene τ) (statements : List Statement) :
    ComesTo ((ofSink sink).replyAll statements) scene
      (Session.database.replyAll sink scene.session scene.sink statements)
      fun _ written => written := by
  induction statements generalizing scene with
  | nil => rfl
  | cons statement rest ih =>
    let executed := Session.database.execute scene.session statement
    let first := Database.reply sink executed.2 scene.sink executed.1
    let others := Session.database.replyAll sink executed.2 first.sink rest
    have hfirst : ((ofSink sink).reply executed.1).run.run { scene with session := executed.2 } =
        (first.result.map fun _ => (Sink.bytesOf first.events).length,
          { scene with session := executed.2, sink := first.sink }) :=
      comesTo_reply sink { scene with session := executed.2 } executed.1
    have hothers : ((ofSink sink).replyAll rest).run.run
        { scene with session := executed.2, sink := first.sink } =
          (others.result.map fun _ => (Sink.bytesOf others.events).length,
            { scene with session := others.state, sink := others.sink }) :=
      ih { scene with session := executed.2, sink := first.sink }
    rw [ComesTo, replyAll, run_bind_of_ok (run_execute sink scene statement)]
    cases hresult : first.result with
    | error fault =>
      rw [hresult] at hfirst
      rw [run_bind_of_error hfirst, Database.replyAll_cons_of_error hresult, hresult]
      rfl
    | ok _ =>
      rw [hresult] at hfirst
      rw [run_bind_of_ok hfirst, run_bind_pure hothers, Database.replyAll_cons_of_ok rfl hresult]
      simp only [Sink.bytesOf_append, List.length_append]
      cases others.result <;> rfl

lemma ComesTo.returning {x : ExceptT Fault (StateM (Scene τ)) Nat} {scene : Scene τ}
    {o : Outcome Unit Session τ} (h : ComesTo x scene o fun _ written => written) (executed : Nat) :
    ComesTo (x >>= fun written => pure (executed, written)) scene (o.returning executed)
      Prod.mk := by
  rw [ComesTo, run_bind_pure h, Outcome.returning]
  cases o.result <;> rfl

lemma comesTo_runLine (scene : Scene τ) (line : Bytes) :
    ComesTo ((ofSink sink).runLine line) scene (scene.runLine sink line) Prod.mk := by
  rw [runLine, Scene.runLine]
  cases Utf8.decode? line with
  | none => exact (comesTo_reply sink scene _).returning 0
  | some text =>
    simp only [Database.runRequest]
    cases parse text with
    | error e => exact (comesTo_reply sink scene _).returning 0
    | ok statements => exact (comesTo_replyAll sink scene statements).returning statements.length

/-! ## Lines -/

/-- Steps taken in a scene come to a fault, or to none, and to another scene. -/
def EndsIn (x : ExceptT Fault (StateM (Scene τ)) Unit) (scene : Scene τ)
    (result : Option Fault × Scene τ) : Prop :=
  x.run.run scene = (result.1.elim (.ok ()) .error, result.2)

lemma endsIn_answer (scene : Scene τ) (line : Bytes) :
    EndsIn ((ofSink sink).answer line) scene (scene.answer sink line) := by
  rw [answer, Scene.answer]
  split
  · rfl
  · have hline := comesTo_runLine sink scene line
    rw [ComesTo] at hline
    rw [EndsIn]
    cases hresult : (scene.runLine sink line).result with
    | error fault =>
      rw [hresult] at hline
      simp only [hresult]
      exact run_bind_of_error hline _
    | ok executed =>
      rw [hresult] at hline
      simp only [hresult]
      exact run_bind_of_ok hline _

lemma endsIn_answerAll (scene : Scene τ) (lines : List Bytes) :
    EndsIn ((ofSink sink).answerAll lines) scene (scene.answerAll sink lines) := by
  induction lines generalizing scene with
  | nil => rfl
  | cons line lines ih =>
    have hline := endsIn_answer sink scene line
    rw [EndsIn] at hline ⊢
    rw [answerAll, Scene.answerAll]
    rcases hanswer : scene.answer sink line with ⟨_ | fault, next⟩
    · rw [hanswer] at hline
      exact (run_bind_of_ok hline _).trans (ih next)
    · rw [hanswer] at hline
      exact run_bind_of_error hline _

/-! ## Whatever arrives -/

/-- **Steps that nothing comes between.**  Taken in a scene, the steps of a connection end it and
leave a rest as `Scene.receive` does, and they leave the same session, ledger and sink. -/
theorem receive_ofSink (scene : Scene τ) (rest : Bytes) (arrival : Arrival) :
    ((ofSink sink).receive rest arrival).run scene =
      let turn := scene.receive sink rest arrival
      ((turn.ending, turn.rest), turn.scene) := by
  cases arrival with
  | bytes chunk =>
    have hreceived : ((ofSink sink).enter (·.received chunk.length)).run scene =
        pure ((), { scene with ledger := scene.ledger.received chunk.length }) := rfl
    have hlines := endsIn_answerAll sink
      { scene with ledger := scene.ledger.received chunk.length }
      (Frames.ofBytes (rest ++ chunk)).requests
    rw [EndsIn] at hlines
    simp only [receive, Scene.receive, StateT.run_bind, hreceived, pure_bind, hlines]
    rcases Scene.answerAll sink _ _ with ⟨_ | fault, next⟩ <;> rfl
  | endOfInput =>
    have hlast := endsIn_answer sink scene rest
    rw [EndsIn] at hlast
    simp only [receive, Scene.receive, StateT.run_bind, hlast]
    rcases scene.answer sink rest with ⟨_ | fault, next⟩ <;> rfl
  | failure fault => rfl

end Means

end ExpiringStore
