import ExpiringStore.Proofs.Database.Recorded
import ExpiringStore.Proofs.Request.Deliver
import ExpiringStore.Proofs.Statement.Joined
import ExpiringStore.Session

/-!
# Requests that are sent together

Two requests may be sent as one, with a semicolon between them unless the first one ends with one.
If both can be read, the whole does what they do one after the other: its statements are those of
the first and then those of the second, so it makes the same calls, and its answer is their answers
(`runRequest_joined`).  But a request is read as a whole, so if the second cannot be read then
nothing of the first is run either, and the one line of the answer names the place in the whole.
-/

namespace ExpiringStore.Database

variable {σ : Type u} {τ : Type v}

lemma executeAll_append (db : Database σ) (s : σ) (first second : List Statement) :
    db.executeAll s (first ++ second) =
      ((db.executeAll s first).1 ++ (db.executeAll (db.executeAll s first).2 second).1,
        (db.executeAll (db.executeAll s first).2 second).2) := by
  induction first generalizing s with
  | nil => rfl
  | cons statement first ih => simp only [List.cons_append, executeAll, ih]

/-- What becomes of the whole, if the first of two requests has a last token. -/
lemma exists_parse_joined {a : String} {A : List Statement} (ha : parse a = .ok A) (hne : A ≠ []) :
    ∃ l last, tokenize a = .ok l ∧ l.tokens.getLast? = some last ∧
      ∀ b, parse ((if last.kind = .terminator then a else a ++ ";") ++ b) =
        moveOutcome (if last.kind = .terminator then a else a ++ ";").toList (A ++ ·)
          (parse b) := by
  cases hl : tokenize a with
  | error e =>
    rw [parse, hl] at ha
    contradiction
  | ok l =>
    rcases List.eq_nil_or_concat l.tokens with hnil | ⟨front, last, htokens⟩
    · rw [parse, hl] at ha
      simp only [Lexed.clauses, hnil] at ha
      injection ha with hA
      exact absurd hA.symm hne
    · rw [List.concat_eq_append] at htokens
      refine ⟨l, last, rfl, by rw [htokens, List.getLast?_concat], fun b => ?_⟩
      by_cases hlast : last.kind = .terminator
      · rw [if_pos hlast]
        exact parse_append hl ha htokens hlast b
      · rw [if_neg hlast]
        obtain ⟨hclosed, r, semicolon, hr, hrtokens, hsemicolon⟩ :=
          parse_concat_semicolon hl ha htokens hlast
        exact parse_append hr hclosed hrtokens hsemicolon b

/-- **Sending requests together changes nothing.**  The text `a` is a request with at least one
statement, and `before` is `a` with a semicolon at its end, which is added unless the last token of
`a` is one.  The database is any database in any state, and the sink any that takes all it is
offered.  If `b` is a request then `before ++ b` is the request of the statements of both, and it
runs as many statements as the two, answers with their answers, and leaves the database as they do
when one is run after the other.  If `b` cannot be read then `before ++ b` cannot be either, for the
same reason at a place that has moved, and no call of the database is made. -/
theorem runRequest_joined (db : Database σ) {sink : Sink τ} {good : τ → Prop}
    (hsink : sink.Reliable good) {t : τ} (ht : good t) (s : σ) {a : String} {A : List Statement}
    (ha : parse a = .ok A) (hne : A ≠ []) :
    ∃ l last, tokenize a = .ok l ∧ l.tokens.getLast? = some last ∧
      let before := if last.kind = .terminator then a else a ++ ";"
      let first := db.runRequest sink s t a
      (∀ b B, parse b = .ok B →
        let second := db.runRequest sink first.state first.sink b
        let whole := db.runRequest sink s t (before ++ b)
        parse (before ++ b) = .ok (A ++ B) ∧
        first.result = .ok A.length ∧ second.result = .ok B.length ∧
        whole.result = .ok (A.length + B.length) ∧
        Sink.bytesOf whole.events = Sink.bytesOf first.events ++ Sink.bytesOf second.events ∧
        whole.state = second.state) ∧
      ∀ b e, parse b = .error e →
        let whole := db.recorded.runRequest sink ⟨s, []⟩ t (before ++ b)
        parse (before ++ b) = .error (e.movedBy before.toList) ∧
        whole.result = .ok 0 ∧
        Sink.bytesOf whole.events = (Response.error (e.movedBy before.toList).message).line ∧
        whole.state = ⟨s, []⟩ := by
  obtain ⟨l, last, hl, hlast, hparse⟩ := exists_parse_joined ha hne
  refine ⟨l, last, hl, hlast, ?_⟩
  intro before first
  have hfirst := db.runRequest_succeeds_of_ok hsink s ht ha
  refine ⟨fun b B hb => ?_, fun b e hb => ?_⟩
  · intro second whole
    have hjoined : parse (before ++ b) = .ok (A ++ B) := by
      rw [hparse b, hb]
      rfl
    have hsecond := db.runRequest_succeeds_of_ok hsink first.state hfirst.good_sink hb
    have hwhole := db.runRequest_succeeds_of_ok hsink s ht hjoined
    have hstate : first.state = (db.executeAll s A).2 := hfirst.state_eq
    have hall := db.executeAll_append s A B
    rw [← hstate] at hall
    rw [hall, List.length_append, List.flatMap_append] at hwhole
    refine ⟨hjoined, hfirst.result_eq, hsecond.result_eq, hwhole.result_eq, ?_, ?_⟩
    · rw [hwhole.bytes_eq, hfirst.bytes_eq, hsecond.bytes_eq]
    · rw [hwhole.state_eq, hsecond.state_eq]
  · intro whole
    have hjoined : parse (before ++ b) = .error (e.movedBy before.toList) := by
      rw [hparse b, hb]
      rfl
    have hwhole := db.recorded.runRequest_succeeds_of_error hsink ⟨s, []⟩ ht hjoined
    exact ⟨hjoined, hwhole.result_eq, hwhole.bytes_eq, hwhole.state_eq⟩

/-- A value with a semicolon and a line feed in it stands at the joint, with a blank and another
line feed behind it. -/
theorem runRequest_joined_behind_string :
    let db := Session.database
    let s : Session := ⟨.empty .mixing .never .never .zero, none⟩
    let a := "GET k; SET k \"x;\n\" \n"
    let A : List Statement := [.get ["k"], .set "k" "x;\n" none]
    let mistake : ParseError := .unexpected ⟨.terminator, ";", ⟨25, 3, 6⟩⟩ .key
    let first := db.runRequest Sink.perfect s () a
    let second := db.runRequest Sink.perfect first.state () "\tGET k"
    let whole := db.runRequest Sink.perfect s () (a ++ ";" ++ "\tGET k")
    Sink.perfect.Reliable (fun _ => True) ∧ parse a = .ok A ∧ A ≠ [] ∧
    parse (a ++ ";" ++ "\tGET k") = .ok (A ++ [.get ["k"]]) ∧
    whole.result = .ok 3 ∧ whole.state = second.state ∧
    Sink.bytesOf whole.events = Sink.bytesOf first.events ++ Utf8.encode "[\"x;\\n\"]\n" ∧
    parse (a ++ ";" ++ "DEL ;") = .error mistake := by
  intro db s a A mistake first second whole
  have ha : parse a = .ok A := by decide +kernel
  have hne : A ≠ [] := List.cons_ne_nil _ _
  have hb : parse "\tGET k" = .ok [.get ["k"]] := by decide +kernel
  let alone : ParseError := .unexpected ⟨.terminator, ";", ⟨4, 1, 5⟩⟩ .key
  have he : parse "DEL ;" = .error alone := by decide +kernel
  have hmoved : alone.movedBy (a ++ ";").toList = mistake := by decide +kernel
  have htoken : (tokenize a).toOption.bind (·.tokens.getLast?) =
      some ⟨.string, "x;\n", ⟨13, 1, 14⟩⟩ := by
    decide +kernel
  obtain ⟨l, last, hl, hlast, hok, herror⟩ :=
    db.runRequest_joined Sink.perfect_reliable trivial s ha hne
  have hstring : last = ⟨.string, "x;\n", ⟨13, 1, 14⟩⟩ := by
    rw [hl] at htoken
    exact Option.some.inj (hlast.symm.trans htoken)
  have hopen : last.kind ≠ .terminator := by simp [hstring]
  simp only [if_neg hopen] at hok herror
  obtain ⟨hparse, -, -, hresult, hbytes, hstate⟩ := hok _ _ hb
  obtain ⟨hmistake, -⟩ := herror _ _ he
  rw [hmoved] at hmistake
  refine ⟨Sink.perfect_reliable, ha, hne, hparse, hresult, hstate, ?_, hmistake⟩
  rw [hbytes]
  decide +kernel

end ExpiringStore.Database
