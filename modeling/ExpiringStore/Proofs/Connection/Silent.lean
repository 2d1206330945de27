import ExpiringStore.Proofs.Connection.Stream
import ExpiringStore.Proofs.Database.Recorded
import ExpiringStore.Proofs.Response.Line
import ExpiringStore.Proofs.Statement.Blank
import ExpiringStore.Proofs.Text.Utf8

/-!
# Lines without an answer

A line is blank when it is UTF-8 and all of its characters are blank.  Such a line has no answer,
and every other line has one.  It makes no difference that a connection passes over a line of ASCII
blanks without looking at its text: the text of such a line is blank, so running it would do nothing
either (`Database.runRequest_of_blank`).  The blank lines that are run, those with a vertical tab or
with a blank outside of ASCII, have no statements, and so do nothing.

All of this is said of `Database.serveLine`, which answers a line over any database.  Over sessions
it is what a connection does (`Scene.answer_eq_serveLine`); over the database that keeps a record it
tells which calls are made.
-/

namespace ExpiringStore

/-- The line is the bytes of a text of blanks. -/
def BlankLine (line : Bytes) : Prop :=
  ∃ text, Utf8.decode? line = some text ∧ ∀ c ∈ text.toList, isBlank c = true

/-- A line that a connection passes over is blank. -/
lemma blankLine_of_all_isBlankByte {line : Bytes} (h : line.all isBlankByte = true) :
    BlankLine line := by
  induction line using List.reverseRecOn with
  | nil => exact ⟨"", rfl, nofun⟩
  | append_singleton front b ih =>
    rw [List.all_append, Bool.and_eq_true, List.all_cons, List.all_nil, Bool.and_true] at h
    obtain ⟨text, htext, hblank⟩ := ih h.1
    have hb : b < 0x80 ∧ isBlank (Char.ofNat b.toNat) = true := by
      have hcases : b = 0x09 ∨ b = 0x0A ∨ b = 0x0C ∨ b = 0x0D ∨ b = 0x20 := by
        simpa [isBlankByte, or_assoc] using h.2
      rcases hcases with rfl | rfl | rfl | rfl | rfl <;> decide
    refine ⟨text ++ String.singleton (Char.ofNat b.toNat), ?_, ?_⟩
    · rw [Utf8.decode?_concat hb.1, htext, Option.map_some]
    · simpa [or_imp, forall_and] using ⟨hblank, hb.2⟩

namespace Database

variable {σ : Type u} {τ : Type v} (db : Database σ) {sink : Sink τ} {good : τ → Prop}
  {seen : τ → Bytes}

/-- Answers one line over a database. -/
def serveLine (db : Database σ) (sink : Sink τ) (s : σ) (t : τ) (line : Bytes) :
    Outcome Nat σ τ :=
  if line.all isBlankByte then ⟨.ok 0, s, t, []⟩
  else
    match Utf8.decode? line with
    | some text => db.runRequest sink s t text
    | none => (reply sink s t (.error "request is not valid UTF-8")).returning 0

/-- Nothing comes of a blank text, whatever the sink would do. -/
lemma runRequest_of_blank (sink : Sink τ) (s : σ) (t : τ) {text : String}
    (h : ∀ c ∈ text.toList, isBlank c = true) :
    db.runRequest sink s t text = ⟨.ok 0, s, t, []⟩ := by
  rw [runRequest, parse_eq_ok_nil_iff.2 h]
  rfl

lemma serveLine_of_blank (sink : Sink τ) (s : σ) (t : τ) {line : Bytes} (h : BlankLine line) :
    db.serveLine sink s t line = ⟨.ok 0, s, t, []⟩ := by
  obtain ⟨text, htext, hblank⟩ := h
  rw [serveLine, htext]
  split_ifs
  · rfl
  · exact db.runRequest_of_blank sink s t hblank

/-- A line that is not blank has an answer. -/
lemma serveLine_of_not_blank (hr : sink.Reliable good) (s : σ) {t : τ} (ht : good t) {line : Bytes}
    (h : ¬ BlankLine line) :
    ∃ executed after responses, responses ≠ [] ∧
      (db.serveLine sink s t line).Succeeds good executed after
        (responses.flatMap Response.line) := by
  have hshown : ¬ line.all isBlankByte = true := mt blankLine_of_all_isBlankByte h
  rw [serveLine, if_neg hshown]
  cases htext : Utf8.decode? line with
  | none =>
    have hreply := (reply_succeeds hr s ht (.error "request is not valid UTF-8")).returning 0
    exact ⟨0, s, [.error "request is not valid UTF-8"], List.cons_ne_nil _ _, by simpa using hreply⟩
  | some text =>
    cases hparse : parse text with
    | error e =>
      have hrun := db.runRequest_succeeds_of_error hr s ht hparse
      exact ⟨0, s, [.error e.message], List.cons_ne_nil _ _, by simpa using hrun⟩
    | ok statements =>
      refine ⟨_, _, _, ?_, db.runRequest_succeeds_of_ok hr s ht hparse⟩
      intro hnone
      have hstatements : statements = [] := by
        rw [← List.length_eq_zero_iff, ← db.length_executeAll s statements, hnone, List.length_nil]
      rw [hstatements] at hparse
      exact h ⟨text, htext, parse_eq_ok_nil_iff.1 hparse⟩

lemma serveLine_tracks (ht : sink.Tracks seen) (s : σ) (t : τ) (line : Bytes) :
    seen (db.serveLine sink s t line).sink =
      seen t ++ Sink.bytesOf (db.serveLine sink s t line).events := by
  rw [serveLine]
  split_ifs
  · exact (List.append_nil _).symm
  split
  · exact db.runRequest_tracks ht s t _
  · exact reply_tracks ht s t _

/-- Keeping a record changes nothing about what a line does. -/
lemma state_recorded_serveLine (hr : sink.Reliable good) (r : Recorded σ) {t : τ} (ht : good t)
    (line : Bytes) :
    (db.recorded.serveLine sink r t line).state.state =
      (db.serveLine sink r.state t line).state := by
  rw [serveLine, serveLine]
  split_ifs
  · rfl
  cases Utf8.decode? line with
  | none => rfl
  | some text =>
    cases hparse : parse text with
    | error e =>
      have hrun := db.runRequest_succeeds_of_error hr r.state ht hparse
      have hrecorded := db.recorded.runRequest_succeeds_of_error hr r ht hparse
      exact (congrArg Recorded.state hrecorded.state_eq).trans hrun.state_eq.symm
    | ok statements =>
      have hrun := db.runRequest_succeeds_of_ok hr r.state ht hparse
      have hrecorded := db.recorded.runRequest_succeeds_of_ok hr r ht hparse
      rw [recorded_executeAll] at hrecorded
      exact (congrArg Recorded.state hrecorded.state_eq).trans hrun.state_eq.symm

end Database

/-! ## Connections -/

namespace Scene

variable {τ : Type u} {sink : Sink τ} {good : τ → Prop} {seen : τ → Bytes}

/-- A connection answers a line as its session does. -/
lemma answer_eq_serveLine (sink : Sink τ) (scene : Scene τ) (line : Bytes) {executed : Nat}
    (h : (Session.database.serveLine sink scene.session scene.sink line).result = .ok executed) :
    ∃ ledger, scene.answer sink line =
      (none, ⟨(Session.database.serveLine sink scene.session scene.sink line).state, ledger,
        (Session.database.serveLine sink scene.session scene.sink line).sink⟩) := by
  rw [answer]
  unfold Database.serveLine at h ⊢
  split_ifs at h ⊢
  · exact ⟨scene.ledger, rfl⟩
  · rw [runLine]
    cases htext : Utf8.decode? line <;> simp only [htext] at h ⊢ <;> rw [h] <;> exact ⟨_, rfl⟩

/-- **Every line is answered unless it is blank.**  A connection is to answer a line, and its sink
does not fail.  It writes nothing exactly if the line is UTF-8 and all of its characters are blank;
any other line gets the lines of one or more responses.  A line that is passed over because all its
bytes are ASCII blanks would have had no answer from the session either.  When nothing is written no
call of the database is made, and the stores, the identity and the sink are what they were. -/
theorem answer_silent_iff_blank (hr : sink.Reliable good) (ht : sink.Tracks seen) (scene : Scene τ)
    (hgood : good scene.sink) (line : Bytes) :
    let blank := ∃ text, Utf8.decode? line = some text ∧ ∀ c ∈ text.toList, isBlank c = true
    let recorded := Session.database.recorded.serveLine sink ⟨scene.session, []⟩ scene.sink line
    ∃ next, scene.answer sink line = (none, next) ∧ recorded.state.state = next.session ∧
      (seen next.sink = seen scene.sink ↔ blank) ∧
      (¬ blank → ∃ responses, responses ≠ [] ∧
        seen next.sink = seen scene.sink ++ responses.flatMap Response.line) ∧
      (line.all isBlankByte = true →
        scene.runLine sink line = ⟨.ok 0, scene.session, scene.sink, []⟩) ∧
      (seen next.sink = seen scene.sink →
        recorded.state.calls = [] ∧ next.session = scene.session ∧ next.sink = scene.sink) := by
  intro blank recorded
  have hstate := Session.database.state_recorded_serveLine hr ⟨scene.session, []⟩ hgood line
  have hshown : line.all isBlankByte = true →
      scene.runLine sink line = ⟨.ok 0, scene.session, scene.sink, []⟩ := by
    intro hall
    obtain ⟨text, htext, htextBlank⟩ := blankLine_of_all_isBlankByte hall
    rw [runLine, htext]
    exact Session.database.runRequest_of_blank sink scene.session scene.sink htextBlank
  by_cases hblank : BlankLine line
  · have hserve := Session.database.serveLine_of_blank sink scene.session scene.sink hblank
    obtain ⟨ledger, hanswer⟩ := answer_eq_serveLine sink scene line (by rw [hserve])
    have hrecorded := Session.database.recorded.serveLine_of_blank sink ⟨scene.session, []⟩
      scene.sink hblank
    rw [hserve] at hanswer hstate
    refine ⟨_, hanswer, hstate, ⟨fun _ => hblank, fun _ => rfl⟩, fun h => absurd hblank h, hshown,
      fun _ => ⟨?_, rfl, rfl⟩⟩
    exact congrArg (fun o => o.state.calls) hrecorded
  · obtain ⟨executed, after, responses, hsome, hserve⟩ :=
      Session.database.serveLine_of_not_blank hr scene.session hgood hblank
    obtain ⟨ledger, hanswer⟩ := answer_eq_serveLine sink scene line hserve.result_eq
    have hseen := Session.database.serveLine_tracks ht scene.session scene.sink line
    rw [hserve.bytes_eq] at hseen
    have hwritten : seen (Session.database.serveLine sink scene.session scene.sink line).sink ≠
        seen scene.sink := by
      rw [hseen, Ne, List.append_right_eq_self, Response.flatMap_line_eq_nil]
      exact hsome
    exact ⟨_, hanswer, hstate, ⟨fun h => absurd h hwritten, fun h => absurd h hblank⟩,
      fun _ => ⟨responses, hsome, hseen⟩, hshown, fun h => absurd h hwritten⟩

/-- A vertical tab and a next-line character, which a connection does not pass over, and a vertical
tab with a byte that begins no character. -/
theorem answer_vertical_tab :
    let scene : Scene Peer := ⟨⟨.empty .mixing .never .never .zero, none⟩, .zero, .fresh⟩
    let blank : Bytes := [0x0B, 0xC2, 0x85]
    let broken : Bytes := [0x0B, 0xC2]
    scene.sink.present = true ∧ blank.all isBlankByte = false ∧
    (∃ next, scene.answer Peer.sink blank = (none, next) ∧ next.sink.bytes = []) ∧
    ∃ next, scene.answer Peer.sink broken = (none, next) ∧ next.sink.bytes ≠ [] := by
  intro scene blank broken
  obtain ⟨silent, hsilent, -, hsilentIff, -⟩ :=
    answer_silent_iff_blank Server.peer_sink_reliable Server.peer_sink_tracks scene rfl blank
  obtain ⟨told, htold, -, htoldIff, -⟩ :=
    answer_silent_iff_blank Server.peer_sink_reliable Server.peer_sink_tracks scene rfl broken
  have hnone : scene.sink.bytes = [] := rfl
  rw [hnone] at hsilentIff htoldIff
  refine ⟨rfl, by decide, ⟨silent, hsilent, hsilentIff.2 ⟨"\x0b\u0085", ?_, ?_⟩⟩,
    ⟨told, htold, mt htoldIff.1 ?_⟩⟩
  · decide
  · exact List.all_eq_true.1 (by decide)
  · rintro ⟨text, htext, -⟩
    have hbroken : Utf8.decode? broken = none := by decide
    rw [hbroken] at htext
    cases htext

end Scene

end ExpiringStore
