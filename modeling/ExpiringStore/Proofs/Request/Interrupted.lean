import ExpiringStore.Database.Plain
import ExpiringStore.Proofs.Database.Recorded
import ExpiringStore.Proofs.Request.Attempts
import ExpiringStore.Request.Scripted

/-!
# Requests that a sink interrupts

The first failure of the sink puts an end to a request.  By then the lines before the one that was
cut short have been passed on in full, and the statements up to and including the one of that line
have been run.  What is left is the state after these statements: it is not taken back, and the next
request on the same database finds it (`runRequest_stops_at_first_failure`).

The sink has a log of all attempts and the database a record of all calls; neither makes a
difference to the request (`runRequest_watched`).  By induction on the statements, the sink has made
`Sink.Progress` with the lines of as many statements as have been run, less one if it failed
(`replyAll_progress`).
-/

namespace ExpiringStore.Database

variable {σ : Type u} {τ : Type v}

open Sink (Attempt Logged Progress)

/-- The lines that answer a request: that of the error if it cannot be read, and otherwise one for
each statement, run in the state that the one before it has left. -/
def linesOf (db : Database σ) (s : σ) (text : String) : List Bytes :=
  match parse text with
  | .error e => [(Response.error e.message).line]
  | .ok statements => (db.executeAll s statements).1.map Response.line

lemma length_le_length_linesOf (db : Database σ) (s : σ) (text : String) :
    ((parse text).toOption.getD []).length ≤ (db.linesOf s text).length := by
  rw [linesOf]
  cases parse text with
  | error e => exact Nat.zero_le _
  | ok statements =>
    rw [List.length_map, length_executeAll]
    exact Nat.le_refl _

/-- The fault that put an end to something, if one did. -/
def faultOf : Except Fault α → Option Fault
  | .ok _ => none
  | .error fault => some fault

lemma faultOf_map (result : Except Fault α) (f : α → β) :
    faultOf (result.map f) = faultOf result := by
  cases result <;> rfl

lemma eq_of_map_eq_ok {result : Except Fault α} {b n : β}
    (h : result.map (fun _ => b) = .ok n) : n = b := by
  cases result with
  | error fault => cases h
  | ok _ => exact (Except.ok.inj h).symm

/-! ## Log and record make no difference -/

lemma replyAll_watched (db : Database σ) (sink : Sink τ) (r : Recorded σ) (l : Logged τ)
    (statements : List Statement) :
    let watched := db.recorded.replyAll sink.logged r l statements
    db.replyAll sink r.state l.state statements =
      ⟨watched.result, watched.state.state, watched.sink.state, watched.events⟩ := by
  induction statements generalizing r l with
  | nil => rfl
  | cons statement rest ih =>
    have hline (response : Response) := sink.logged_shows.writeLine l response.line
    simp only [replyAll, reply, recorded_execute, hline]
    cases (sink.logged.writeLine l (db.execute r.state statement).1.line).result with
    | error fault => rfl
    | ok _ =>
      have hrest := ih ⟨(db.execute r.state statement).2,
        (db.callsOf r.state statement).reverse ++ r.calls⟩
        (sink.logged.writeLine l (db.execute r.state statement).1.line).sink
      simp only at hrest
      simp only [hrest]

lemma runRequest_watched (db : Database σ) (sink : Sink τ) (s : σ) (t : τ) (text : String) :
    let watched := db.recorded.runRequest sink.logged ⟨s, []⟩ ⟨t, []⟩ text
    db.runRequest sink s t text =
      ⟨watched.result, watched.state.state, watched.sink.state, watched.events⟩ := by
  intro watched
  have hline (response : Response) := sink.logged_shows.writeLine ⟨t, []⟩ response.line
  have hall := db.replyAll_watched sink ⟨s, []⟩ ⟨t, []⟩
  simp only at hline hall
  simp only [watched, runRequest]
  cases parse text with
  | error e => simp only [Outcome.returning, reply, hline]
  | ok statements => simp only [Outcome.returning, hall]

/-! ## How far a request goes -/

/-- Statements are run up to the one whose line is cut short. -/
lemma replyAll_progress (db : Database σ) (sink : Sink τ) (s : σ) (l : Logged τ)
    (statements : List Statement) :
    let outcome := db.replyAll sink.logged s l statements
    ∃ made count, outcome.sink.attempts = l.attempts ++ made ∧
      Progress ((db.executeAll s statements).1.map Response.line) made count
        (faultOf outcome.result) ∧
      outcome.state = (db.executeAll s (statements.take (count + 1))).2 := by
  induction statements generalizing s l with
  | nil => exact ⟨[], 0, (List.append_nil _).symm, .done, rfl⟩
  | cons statement rest ih =>
    obtain ⟨made, hmade, hline⟩ := sink.writeLine_logged l (db.execute s statement).1.line
    simp only [replyAll, reply]
    cases hresult : (sink.logged.writeLine l (db.execute s statement).1.line).result with
    | error fault =>
      rw [hresult] at hline
      exact ⟨made, 0, hmade, .stopped hline, rfl⟩
    | ok _ =>
      rw [hresult] at hline
      obtain ⟨others, count, hothers, hprogress, hstate⟩ := ih (db.execute s statement).2
        (sink.logged.writeLine l (db.execute s statement).1.line).sink
      rw [hmade, List.append_assoc] at hothers
      exact ⟨made ++ others, count + 1, hothers, .next hline hprogress, hstate⟩

/-- Where nothing fails, there is a point before each statement at which the statements before it
have been run, their lines have been passed on, and running the others comes to the same end. -/
lemma exists_before_statement (db : Database σ) (sink : Sink τ) {s : σ} {l : Logged τ}
    {statements : List Statement} (h : (db.replyAll sink.logged s l statements).result = .ok ())
    {k : Nat} (hk : k ≤ statements.length) :
    ∃ (l' : Logged τ) (made : List Attempt), l'.attempts = l.attempts ++ made ∧
      Progress (((db.executeAll s statements).1.map Response.line).take k) made k none ∧
      let others := db.replyAll sink.logged (db.executeAll s (statements.take k)).2 l'
        (statements.drop k)
      others.state = (db.replyAll sink.logged s l statements).state ∧
        others.sink = (db.replyAll sink.logged s l statements).sink := by
  induction statements generalizing s l k with
  | nil =>
    rw [Nat.le_zero.1 hk]
    exact ⟨l, [], (List.append_nil _).symm, .done, rfl, rfl⟩
  | cons statement rest ih =>
    cases k with
    | zero => exact ⟨l, [], (List.append_nil _).symm, .done, rfl, rfl⟩
    | succ k =>
      obtain ⟨made, hmade, hline⟩ := sink.writeLine_logged l (db.execute s statement).1.line
      simp only [replyAll, reply] at h ⊢
      cases hresult : (sink.logged.writeLine l (db.execute s statement).1.line).result with
      | error fault =>
        simp only [hresult] at h
        cases h
      | ok _ =>
        rw [hresult] at hline
        simp only [hresult] at h
        obtain ⟨l', others, hothers, hprogress, hsame⟩ := ih h (Nat.le_of_succ_le_succ hk)
        rw [hmade, List.append_assoc] at hothers
        exact ⟨l', made ++ others, hothers, .next hline hprogress, hsame⟩

lemma linesOf_recorded (db : Database σ) (r : Recorded σ) (text : String) :
    db.recorded.linesOf r text = db.linesOf r.state text := by
  rw [linesOf, linesOf]
  cases parse text with
  | error e => rfl
  | ok statements => simp only [recorded_executeAll]

lemma runRequest_progress (db : Database σ) (sink : Sink τ) (s : σ) (l : Logged τ)
    (text : String) :
    let outcome := db.runRequest sink.logged s l text
    let statements := (parse text).toOption.getD []
    ∃ made count, outcome.sink.attempts = l.attempts ++ made ∧
      Progress (db.linesOf s text) made count (faultOf outcome.result) ∧
      outcome.state = (db.executeAll s (statements.take (count + 1))).2 ∧
      ∀ n, outcome.result = .ok n → n = statements.length := by
  simp only [runRequest, linesOf]
  cases parse text with
  | error e =>
    obtain ⟨made, hmade, hline⟩ := sink.writeLine_logged l (Response.error e.message).line
    simp only [Outcome.returning, faultOf_map]
    refine ⟨made, ?_⟩
    cases hresult : (sink.logged.writeLine l (Response.error e.message).line).result with
    | error fault =>
      rw [hresult] at hline
      simp only [reply, hresult]
      exact ⟨0, hmade, .stopped hline, rfl, fun n hn => by cases hn⟩
    | ok _ =>
      rw [hresult] at hline
      have hwhole : Progress [(Response.error e.message).line] (made ++ []) 1 none :=
        .next hline .done
      rw [List.append_nil] at hwhole
      simp only [reply, hresult]
      exact ⟨1, hmade, hwhole, rfl, fun n hn => (Except.ok.inj hn).symm⟩
  | ok statements =>
    obtain ⟨made, count, hmade, hprogress, hstate⟩ := db.replyAll_progress sink s l statements
    simp only [Outcome.returning, faultOf_map]
    exact ⟨made, count, hmade, hprogress, hstate, fun n => eq_of_map_eq_ok⟩

/-- If nothing fails then all statements have been run and the bytes taken are all lines. -/
lemma runRequest_of_ok (db : Database σ) (sink : Sink τ) {s : σ} {t : τ} {text : String} {n : Nat}
    (h : (db.runRequest sink s t text).result = .ok n) :
    n = ((parse text).toOption.getD []).length ∧
      Sink.bytesOf (db.runRequest sink s t text).events = (db.linesOf s text).flatten := by
  have hwatched := db.runRequest_watched sink s t text
  simp only at hwatched
  obtain ⟨made, count, hmade, hprogress, -, hlength⟩ :=
    db.recorded.runRequest_progress sink ⟨s, []⟩ ⟨t, []⟩ text
  have htaken := db.recorded.runRequest_tracks sink.logged_tracks ⟨s, []⟩ ⟨t, []⟩ text
  simp only [hmade, List.nil_append, List.flatMap_nil] at htaken
  rw [hwatched] at h ⊢
  simp only at h
  rw [h, linesOf_recorded] at hprogress
  exact ⟨hlength n h, htaken.symm.trans hprogress.of_no_fault.1⟩

/-- The points before the statements of a request. -/
lemma exists_resumed (db : Database σ) (sink : Sink τ) (s : σ) (t : τ) {text : String} {n : Nat}
    (h : (db.recorded.runRequest sink.logged ⟨s, []⟩ ⟨t, []⟩ text).result = .ok n) {k : Nat}
    (hk : k < ((parse text).toOption.getD []).length) :
    let watched := db.recorded.runRequest sink.logged ⟨s, []⟩ ⟨t, []⟩ text
    let statements := (parse text).toOption.getD []
    let after : Recorded σ :=
      ⟨(db.executeAll s (statements.take k)).2, (db.callsOfAll s (statements.take k)).reverse⟩
    ∃ l, Progress ((db.linesOf s text).take k) l.attempts k none ∧
      let others := db.recorded.replyAll sink.logged after l (statements.drop k)
      others.state = watched.state ∧ others.sink = watched.sink := by
  simp only [runRequest, linesOf] at h ⊢
  cases hparse : parse text with
  | error e => simp [hparse, Except.toOption] at hk
  | ok statements =>
    simp only [hparse, Outcome.returning] at h hk ⊢
    cases hall : (db.recorded.replyAll sink.logged ⟨s, []⟩ ⟨t, []⟩ statements).result with
    | error fault =>
      rw [hall] at h
      cases h
    | ok _ =>
      obtain ⟨l, made, hl, hprogress, hsame⟩ :=
        db.recorded.exists_before_statement sink hall (k := k) (Nat.le_of_lt hk)
      simp only [recorded_executeAll, List.append_nil] at hprogress hsame
      obtain rfl : l.attempts = made := hl
      exact ⟨l, hprogress, hsame⟩

lemma bytesOf_runRequest_perfect (db : Database σ) (s : σ) (text : String) :
    Sink.bytesOf (db.runRequest Sink.perfect s () text).events = (db.linesOf s text).flatten := by
  cases hparse : parse text with
  | error e =>
    have hall := db.runRequest_succeeds_of_error Sink.perfect_reliable s (t := ()) trivial hparse
    simp only [hall.bytes_eq, linesOf, hparse, List.flatten_singleton]
  | ok statements =>
    have hall := db.runRequest_succeeds_of_ok Sink.perfect_reliable s (t := ()) trivial hparse
    simp only [hall.bytes_eq, linesOf, hparse, List.flatMap_def]

/-- **A request ends at the first failure of its sink.**  The database, its state, the text and the
sink are any.  `watched` is the same request with a record of the calls and a log of the attempts,
and `after n` is the state after the first `n` statements with the calls of these; a text that
cannot be read has none.  The bytes taken are the first ones of those that a sink without failures
takes.

If nothing fails they are all of them.  Then every line was passed on by writes of its own and one
flush, and right before a statement is run this has been done with the lines of the statements
before it: running the others from there comes to the same end.

If there is a failure, the result is its fault.  It falls into one line, whose number counted from
zero is `k`.  The lines before it have been passed on, and the failure is the last thing that was
attempted.  The statements up to the one of that line have been run, and a later request starts from
the state that they have left. -/
theorem runRequest_stops_at_first_failure (db : Database σ) (sink : Sink τ) (s : σ) (t : τ)
    (text : String) :
    let outcome := db.runRequest sink s t text
    let watched := db.recorded.runRequest sink.logged ⟨s, []⟩ ⟨t, []⟩ text
    let statements := (parse text).toOption.getD []
    let lines := db.linesOf s text
    let after (n : Nat) : Recorded σ :=
      ⟨(db.executeAll s (statements.take n)).2, (db.callsOfAll s (statements.take n)).reverse⟩
    let resumed (k : Nat) (l : Logged τ) :=
      db.recorded.replyAll sink.logged (after k) l (statements.drop k)
    outcome = ⟨watched.result, watched.state.state, watched.sink.state, watched.events⟩ ∧
    Sink.bytesOf (db.runRequest Sink.perfect s () text).events = lines.flatten ∧
    Sink.bytesOf outcome.events <+: lines.flatten ∧
    match outcome.result with
    | .ok n =>
      n = statements.length ∧ watched.state = after n ∧
      Progress lines watched.sink.attempts lines.length none ∧
      Sink.bytesOf outcome.events = lines.flatten ∧
      ∀ k < n, ∃ l, Progress (lines.take k) l.attempts k none ∧
        (resumed k l).state = watched.state ∧ (resumed k l).sink = watched.sink
    | .error fault =>
      ∃ k < lines.length, watched.state = after (k + 1) ∧
        Progress lines watched.sink.attempts k (some fault) ∧
        (lines.take k).flatten <+: Sink.bytesOf outcome.events ∧
        ∀ later, db.runRequest sink outcome.state outcome.sink later =
          db.runRequest sink (after (k + 1)).state outcome.sink later := by
  intro outcome watched statements lines after resumed
  have hwatched : outcome = _ := db.runRequest_watched sink s t text
  have hbytes : Sink.bytesOf outcome.events = watched.sink.attempts.flatMap Attempt.bytes := by
    rw [hwatched]
    exact (db.recorded.runRequest_tracks sink.logged_tracks ⟨s, []⟩ ⟨t, []⟩ text).symm
  obtain ⟨made, count, hmade, hprogress, hstate, hlength⟩ :=
    db.recorded.runRequest_progress sink ⟨s, []⟩ ⟨t, []⟩ text
  obtain rfl : watched.sink.attempts = made := hmade
  rw [linesOf_recorded] at hprogress
  have hafter : watched.state = after (count + 1) := by
    rw [show watched.state = _ from hstate, recorded_executeAll, List.append_nil]
  have hresult : outcome.result = watched.result := by rw [hwatched]
  refine ⟨hwatched, db.bytesOf_runRequest_perfect s text, hbytes ▸ hprogress.bytes_prefix, ?_⟩
  rw [hresult]
  cases hend : watched.result with
  | ok n =>
    rw [show watched.result = _ from hend] at hprogress
    obtain ⟨hall, rfl⟩ := hprogress.of_no_fault
    obtain rfl := hlength n hend
    have hwhole : after (lines.length + 1) = after statements.length := by
      have hle : statements.length ≤ lines.length := db.length_le_length_linesOf s text
      simp only [after, List.take_length, List.take_of_length_le (Nat.le_succ_of_le hle)]
    exact ⟨rfl, hafter.trans hwhole, hprogress, hbytes.trans hall, fun k hk =>
      db.exists_resumed sink s t hend hk⟩
  | error fault =>
    rw [show watched.result = _ from hend] at hprogress
    refine ⟨count, hprogress.count_lt, hafter, hprogress, ?_, fun later => ?_⟩
    · rw [hbytes]
      exact hprogress.prefix_bytes
    · rw [hwatched, hafter]

/-- The second flush fails: the third statement is not run. -/
example :
    let sink := Scripted.sink ⟨none, some 1, none, some 5⟩
    let outcome := (Plain.database true).runRequest sink [] ⟨0, 0⟩ "SET a 1; SET b 2; DEL a"
    faultOf outcome.result = some .connectionReset ∧ outcome.sink = ⟨4, 2⟩ ∧
      outcome.state = [("b", Utf8.encode "2"), ("a", Utf8.encode "1")] ∧
      Sink.bytesOf outcome.events = Utf8.encode "Success\nSuccess\n" := by
  decide +kernel

end ExpiringStore.Database
