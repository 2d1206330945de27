import ExpiringStore.Database.Guarded
import ExpiringStore.Database.Plain
import ExpiringStore.Proofs.Database.Recorded
import ExpiringStore.Proofs.Request.Deliver
import ExpiringStore.Proofs.Response.Line

/-!
# A request is read as a whole and answered line by line

All of a request is read before any of it is run.  So a request that cannot be read makes no call of
the database, however many statements stand before the mistake, and is answered by one line.  One
that can be read makes the calls of its statements in order, and each statement has one line of the
answer, whatever was stored and whatever the database refuses.
-/

namespace ExpiringStore.Database

variable {σ : Type u} {τ : Type v}

/-- The line that answers a request that cannot be read. -/
lemma line_error (message : String) :
    (Response.error message).line =
      Utf8.encode "ERROR: " ++ Response.escape false (Utf8.encode message) ++
        [Response.lineFeed] :=
  rfl

/-- **All or nothing, and a line for each statement.**  The database is any database with a record
of its calls, and the sink any that takes all it is offered, in however many parts.  If the text
cannot be read, no call is made, the state stays as it is, and the only line is that of the error.
Otherwise the calls are those of the statements in order, each run in the state that the one before
it has left, and the bytes are the lines of their responses, one line feed to each. -/
theorem runRequest_reads_before_it_runs (db : Database σ) {sink : Sink τ} {good : τ → Prop}
    (hsink : sink.Reliable good) {t : τ} (ht : good t) (r : Recorded σ) (text : String) :
    let outcome := db.recorded.runRequest sink r t text
    let bytes := Sink.bytesOf outcome.events
    (∀ e, parse text = .error e →
      outcome.result = .ok 0 ∧ outcome.state = r ∧
      bytes = Utf8.encode "ERROR: " ++ Response.escape false (Utf8.encode e.message) ++
        [Response.lineFeed] ∧
      bytes.count Response.lineFeed = 1) ∧
    ∀ statements, parse text = .ok statements →
      let run := db.executeAll r.state statements
      outcome.result = .ok statements.length ∧
      outcome.state = ⟨run.2, (db.callsOfAll r.state statements).reverse ++ r.calls⟩ ∧
      run.1.length = statements.length ∧
      bytes = run.1.flatMap Response.line ∧
      bytes.count Response.lineFeed = statements.length := by
  intro outcome bytes
  have hspec := db.recorded.runRequest_succeeds hsink r ht text
  constructor
  · intro e he
    rw [he] at hspec
    refine ⟨hspec.result_eq, hspec.state_eq, hspec.bytes_eq.trans (line_error _), ?_⟩
    rw [show bytes = _ from hspec.bytes_eq, Response.count_lineFeed_line]
  · intro statements hs run
    rw [hs] at hspec
    simp only [recorded_executeAll] at hspec
    have hlength : run.1.length = statements.length := db.length_executeAll _ _
    refine ⟨hspec.result_eq, hspec.state_eq, hlength, hspec.bytes_eq, ?_⟩
    rw [show bytes = _ from hspec.bytes_eq, Response.count_lineFeed_lines, hlength]

/-- A request whose second statement has no key, and one whose first statement is refused and whose
second stores a text of two lines. -/
theorem runRequest_of_mistake_and_refusal :
    let db := (Plain.database true).guarded (.ofList [⟨.write, some "a"⟩])
    let request (text : String) := db.recorded.runRequest Sink.perfect ⟨[], []⟩ () text
    let mistake : ParseError := .unexpected ⟨.terminator, ";", ⟨12, 1, 13⟩⟩ .key
    let statements : List Statement := [.set "a" "1" none, .set "b" "x\ny" none, .get ["b", "a"]]
    Sink.perfect.Reliable (fun _ => True) ∧
    (parse "SET b 1; GET;" = .error mistake ∧
      (request "SET b 1; GET;").state = ⟨[], []⟩ ∧
      Sink.bytesOf (request "SET b 1; GET;").events =
        Utf8.encode "ERROR: unexpected ';' at 1:13, expected key\n") ∧
    (parse "SET a 1; SET b \"x\ny\"; GET b a" = .ok statements ∧
      (request "SET a 1; SET b \"x\ny\"; GET b a").state.calls =
        [.get "a", .get "b", .set "b" (Utf8.encode "x\ny") none, .set "a" (Utf8.encode "1") none] ∧
      Sink.bytesOf (request "SET a 1; SET b \"x\ny\"; GET b a").events =
        Utf8.encode
          "ERROR: access denied: write not permitted\nSuccess\n[\"x\\ny\", (nil)]\n") := by
  intro db request mistake statements
  have hmistake : parse "SET b 1; GET;" = .error mistake := by decide +kernel
  have hstatements : parse "SET a 1; SET b \"x\ny\"; GET b a" = .ok statements := by
    decide +kernel
  have hwrong := db.runRequest_reads_before_it_runs Sink.perfect_reliable (t := ()) trivial ⟨[], []⟩
    "SET b 1; GET;"
  have hright := db.runRequest_reads_before_it_runs Sink.perfect_reliable (t := ()) trivial ⟨[], []⟩
    "SET a 1; SET b \"x\ny\"; GET b a"
  obtain ⟨-, hstate, hbytes, -⟩ := hwrong.1 mistake hmistake
  obtain ⟨-, hcalls, -, hlines, -⟩ := hright.2 statements hstatements
  refine ⟨Sink.perfect_reliable, ⟨hmistake, hstate, ?_⟩, hstatements, ?_, ?_⟩
  · rw [hbytes]
    decide +kernel
  · rw [hcalls]
    decide +kernel
  · rw [hlines]
    decide +kernel

end ExpiringStore.Database
