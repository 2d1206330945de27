import ExpiringStore.Proofs.Database.Guarded
import ExpiringStore.Proofs.Request.Joined
import ExpiringStore.Proofs.Response.Line
import ExpiringStore.Proofs.Session.Effects

/-!
# Requests behind a guard

What is refused to one statement of a request is nothing to the others.  Each of them is run in the
state that the ones before it have left, is contained in the sense of `Contained` there, and has a
line of its own; the request ends when all have been run.  Which calls of the database a request
makes is therefore settled by its statements and the guard, whatever is stored.

Sessions serve whatever the guard grants, with the live values as what is held, so all of this holds
of a guard in front of a session (`Session.serves`).
-/

namespace ExpiringStore

/-- A session stores, reads and removes what it is asked to. -/
lemma Session.serves (refuses : Guard) :
    Session.database.Serves refuses fun s => s.stores.value where
  set s key value ttl _ := by
    simp only [database, Session.set, if_pos (s.permits_eq_true .write)]
  get s key _ := by
    simp only [database, Session.get, if_pos (s.permits_eq_true .read)]
    exact ⟨_, rfl⟩
  delete s key _ := by
    simp only [database, Session.delete, if_pos (s.permits_eq_true .delete)]
    exact ⟨_, rfl⟩
  held_delete s key other _ := by
    have hdelete :=
      s.stores.data.visible_delete s.stores.now (Utf8.encode key) (Utf8.encode other)
    simp only [Utf8.encode_injective.eq_iff] at hdelete
    simp only [database, Session.delete, if_pos (s.permits_eq_true .delete)]
    exact hdelete

namespace Database

variable {σ : Type u} {τ : Type v} {β : Type w}

/-- **Refusals are contained.**  The database is any that serves what the guard grants, and the sink
any that takes all it is offered.  A request that can be read runs all of its statements and answers
each by a line, whatever is refused.  The calls it makes are those that the guard leaves of the
statements, one after the other.  And wherever a statement stands, it finds what the statements
before it have left, its response is the one in its place, the statements after it are run in what
it leaves, and what it does is contained. -/
theorem runRequest_contains_refusals (db : Database σ) (refuses : Guard)
    (held : σ → String → Option β) (hdb : db.Serves refuses held) {sink : Sink τ} {good : τ → Prop}
    (hsink : sink.Reliable good) {t : τ} (ht : good t) (r : Recorded σ) {text : String}
    {statements : List Statement} (hparse : parse text = .ok statements) :
    let outcome := (db.guarded refuses).recorded.runRequest sink r t text
    let run := (db.guarded refuses).executeAll r.state statements
    outcome.result = .ok statements.length ∧
    outcome.state = ⟨run.2, (statements.flatMap refuses.callsFor).reverse ++ r.calls⟩ ∧
    Sink.bytesOf outcome.events = run.1.flatMap Response.line ∧
    run.1.length = statements.length ∧
    (Sink.bytesOf outcome.events).count Response.lineFeed = statements.length ∧
    ∀ front statement rest, statements = front ++ statement :: rest →
      let found := ((db.guarded refuses).executeAll r.state front).2
      ∃ response left,
        run.1[front.length]? = some response ∧
        run.2 = ((db.guarded refuses).executeAll left rest).2 ∧
        Contained db refuses held found statement response left := by
  intro outcome run
  have hspec := (db.guarded refuses).recorded.runRequest_succeeds_of_ok hsink r ht hparse
  simp only [recorded_executeAll, hdb.callsOfAll] at hspec
  have hlength : run.1.length = statements.length := length_executeAll _ _ _
  refine ⟨hspec.result_eq, hspec.state_eq, hspec.bytes_eq, hlength, ?_, ?_⟩
  · rw [hspec.bytes_eq, Response.count_lineFeed_lines, ← hlength]
  · rintro front statement rest rfl found
    have hrun : run = _ := (db.guarded refuses).executeAll_append r.state front (statement :: rest)
    refine ⟨_, _, ?_, ?_, hdb.contained found statement⟩
    · rw [hrun, List.getElem?_append_right (length_executeAll _ _ _).le, length_executeAll,
        Nat.sub_self]
      rfl
    · rw [hrun]
      rfl

/-- A guard in front of a session, and a request of six statements of which three are refused: a
`SET`, a `GET` at its second key, and a `DEL` at its second key.  The last statement finds the first
key removed and the second one not. -/
theorem runRequest_of_three_refusals :
    let refuses : Guard := .ofList [⟨.write, some "d"⟩, ⟨.read, some "c"⟩, ⟨.delete, some "b"⟩]
    let session : Session := ⟨.empty .mixing .never .never .zero, none⟩
    let text := "SET a 1; SET b 2; SET d 3; GET a c b; DEL a b c; GET a b d"
    let statements : List Statement :=
      [.set "a" "1" none, .set "b" "2" none, .set "d" "3" none, .get ["a", "c", "b"],
        .delete ["a", "b", "c"], .get ["a", "b", "d"]]
    let outcome :=
      (Session.database.guarded refuses).recorded.runRequest Sink.perfect ⟨session, []⟩ () text
    Session.database.Serves refuses (fun s => s.stores.value) ∧
    Sink.perfect.Reliable (fun _ => True) ∧
    parse text = .ok statements ∧
    outcome.result = .ok 6 ∧
    outcome.state.calls.reverse =
      [.set "a" (Utf8.encode "1") none, .set "b" (Utf8.encode "2") none,
        .set "d" (Utf8.encode "3") none, .get "a", .get "c", .delete "a", .delete "b",
        .get "a", .get "b", .get "d"] ∧
    Sink.bytesOf outcome.events = Utf8.encode ("Success\nSuccess\n" ++
      "ERROR: access denied: write not permitted\n" ++
      "ERROR: access denied: read not permitted\n" ++
      "ERROR: access denied: delete not permitted\n" ++
      "[(nil), \"2\", (nil)]\n") := by
  intro refuses session text statements outcome
  have hserves := Session.serves refuses
  have hparse : parse text = .ok statements := by decide +kernel
  obtain ⟨hresult, hstate, hbytes, -⟩ := runRequest_contains_refusals Session.database refuses _
    hserves Sink.perfect_reliable (t := ()) trivial ⟨session, []⟩ hparse
  refine ⟨hserves, Sink.perfect_reliable, hparse, hresult, ?_, ?_⟩
  · rw [show outcome.state = _ from hstate, List.append_nil, List.reverse_reverse]
    decide +kernel
  · rw [show Sink.bytesOf outcome.events = _ from hbytes]
    decide +kernel

end Database

end ExpiringStore
