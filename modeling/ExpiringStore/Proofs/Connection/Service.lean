import ExpiringStore.Connection.Handler
import ExpiringStore.Proofs.Connection.Framing
import ExpiringStore.Proofs.Request.Deliver

/-!
# Serving lines one after another

The reference for a connection knows nothing of reads, of what is left between them, of writes or of
a ledger.  A `Service` is a session with what its client has been answered and two plain counts.
`Service.line` serves one line, and `Service.stream` serves a whole stream of bytes: it cuts the
stream at every line feed, takes a carriage return off the end of each ended line, and serves the
lines and then what follows the last line feed.

A scene `Follows` a service when it has the same session, when its ledger has grown by the two
counts and by the bytes of the answers, and when its sink has taken these bytes.  Every line that a
scene answers is followed in this sense, as long as the sink does not fail.
-/

namespace ExpiringStore

/-- What a client has been served: the session, the bytes of all answers, and how many requests
were answered and statements run. -/
structure Service where
  session : Session
  bytes : Bytes
  requests : Nat
  statements : Nat

namespace Service

/-- A client that has not been served yet. -/
def begin (session : Session) : Service := ⟨session, [], 0, 0⟩

/-- Tab, line feed, form feed, carriage return and space. -/
def asciiBlanks : Bytes := [0x09, 0x0A, 0x0C, 0x0D, 0x20]

/-- Serves one line.  Blank lines are passed over, and a line that is not UTF-8 is answered by a
fixed line; any other line is run as a request. -/
def line (v : Service) (line : Bytes) : Service :=
  if line.all asciiBlanks.contains then v
  else
    match Utf8.decode? line with
    | none =>
      { v with
        bytes := v.bytes ++ Utf8.encode "ERROR: request is not valid UTF-8\n"
        requests := v.requests + 1 }
    | some text =>
      let outcome := Session.database.runRequest Sink.perfect v.session () text
      { session := outcome.state
        bytes := v.bytes ++ Sink.bytesOf outcome.events
        requests := v.requests + 1
        statements := v.statements + outcome.result.toOption.getD 0 }

/-- Serves lines in order. -/
def lines (v : Service) (ls : List Bytes) : Service := ls.foldl line v

/-- Serves a whole stream: the ended lines, and at last what follows the last line feed. -/
def stream (v : Service) (stream : Bytes) : Service :=
  let pieces := stream.splitOn 0x0A
  let ended := pieces.dropLast.map fun piece =>
    if piece.getLast? = some 0x0D then piece.dropLast else piece
  (v.lines ended).line (pieces.getLastD [])

lemma isBlankByte_eq : isBlankByte = asciiBlanks.contains := by
  funext b
  rw [Bool.eq_iff_iff]
  simp [isBlankByte, asciiBlanks, or_assoc]

lemma lines_append (v : Service) (a b : List Bytes) : v.lines (a ++ b) = (v.lines a).lines b :=
  List.foldl_append

lemma stream_eq (v : Service) (bytes : Bytes) :
    v.stream bytes =
      (v.lines (Frames.ofBytes bytes).requests).line (Frames.ofBytes bytes).rest := by
  have hreturn : Frames.withoutReturn = fun piece : Bytes =>
      if piece.getLast? = some 0x0D then piece.dropLast else piece := rfl
  rw [stream, Frames.splitOn_eq, Frames.requests, hreturn]
  simp

end Service

/-! ## The ledger -/

namespace Ledger

/-- The ledger grown by what a client has been served. -/
def serving (l : Ledger) (v : Service) : Ledger :=
  { l with
    requests := l.requests + UInt64.ofNat v.requests
    statements := l.statements + UInt64.ofNat v.statements
    written := l.written + UInt64.ofNat v.bytes.length }

lemma serving_begin (l : Ledger) (session : Session) : l.serving (.begin session) = l := by
  simp [serving, Service.begin]

lemma received_zero (l : Ledger) : l.received 0 = l := by simp [received]

lemma received_received (l : Ledger) (a b : Nat) :
    (l.received a).received b = l.received (a + b) := by
  simp [received, UInt64.ofNat_add, UInt64.add_assoc]

/-- One more request with its statements and the bytes of its answer. -/
lemma sent_answered_serving (l : Ledger) (v : Service) (session : Session) (executed : Nat)
    (bytes : Bytes) :
    ((l.serving v).answered executed).sent bytes.length =
      l.serving ⟨session, v.bytes ++ bytes, v.requests + 1, v.statements + executed⟩ := by
  simp [serving, answered, sent, UInt64.ofNat_add, UInt64.add_assoc]

end Ledger

/-! ## Scenes -/

namespace Scene

variable {τ : Type u} {sink : Sink τ} {good : τ → Prop} {seen : τ → Bytes}

/-- The scene agrees with the service `v`, counted from the ledger `l` and from the bytes `before`
that the sink had taken earlier. -/
structure Follows (good : τ → Prop) (seen : τ → Bytes) (l : Ledger) (before : Bytes) (v : Service)
    (scene : Scene τ) : Prop where
  session_eq : scene.session = v.session
  ledger_eq : scene.ledger = l.serving v
  good_sink : good scene.sink
  seen_eq : seen scene.sink = before ++ v.bytes

variable {l : Ledger} {before : Bytes} {v : Service} {scene : Scene τ}

/-- What running one line does, in the words of the service. -/
lemma Follows.runLine (hr : sink.Reliable good) (ht : sink.Tracks seen)
    (h : scene.Follows good seen l before v) {line : Bytes} (hline : line.all isBlankByte = false) :
    ∃ executed bytes,
      v.line line = ⟨(v.line line).session, v.bytes ++ bytes, v.requests + 1,
        v.statements + executed⟩ ∧
      (scene.runLine sink line).Succeeds good executed (v.line line).session bytes ∧
      seen (scene.runLine sink line).sink = before ++ v.bytes ++ bytes := by
  rw [Service.isBlankByte_eq] at hline
  simp only [Scene.runLine, Service.line, hline, h.session_eq, Bool.false_eq_true, if_false]
  rw [← h.seen_eq]
  cases Utf8.decode? line with
  | none =>
    have hreply := Database.reply_succeeds hr v.session h.good_sink
      (.error "request is not valid UTF-8")
    have htaken := Database.reply_tracks ht v.session scene.sink
      (.error "request is not valid UTF-8")
    rw [hreply.bytes_eq] at htaken
    exact ⟨0, _, rfl, hreply.returning 0, htaken⟩
  | some text =>
    obtain ⟨n, hn, hrun⟩ := Session.database.runRequest_succeeds_perfect hr v.session h.good_sink
      text
    have htaken := Session.database.runRequest_tracks ht v.session scene.sink text
    rw [hrun.bytes_eq] at htaken
    simp only [hn]
    exact ⟨n, _, rfl, hrun, htaken⟩

lemma Follows.answer (hr : sink.Reliable good) (ht : sink.Tracks seen)
    (h : scene.Follows good seen l before v) (line : Bytes) :
    ∃ scene', scene.answer sink line = (none, scene') ∧
      scene'.Follows good seen l before (v.line line) := by
  cases hline : line.all isBlankByte with
  | true =>
    have hblank : line.all Service.asciiBlanks.contains = true := by
      rw [← Service.isBlankByte_eq, hline]
    rw [Scene.answer, if_pos hline, Service.line, if_pos hblank]
    exact ⟨scene, rfl, h⟩
  | false =>
    obtain ⟨executed, bytes, hv, hrun, hseen⟩ := h.runLine hr ht hline
    simp only [Scene.answer, hline, Bool.false_eq_true, if_false, hrun.result_eq]
    refine ⟨_, rfl, hrun.state_eq, ?_, hrun.good_sink, ?_⟩
    · rw [hrun.bytes_eq, h.ledger_eq, hv]
      exact Ledger.sent_answered_serving l v _ executed bytes
    · rw [hseen, hv, List.append_assoc]

lemma Follows.answerAll (hr : sink.Reliable good) (ht : sink.Tracks seen) (ls : List Bytes)
    (h : scene.Follows good seen l before v) :
    ∃ scene', scene.answerAll sink ls = (none, scene') ∧
      scene'.Follows good seen l before (v.lines ls) := by
  induction ls generalizing scene v with
  | nil => exact ⟨scene, rfl, h⟩
  | cons line ls ih =>
    obtain ⟨next, hnext, hfollows⟩ := h.answer hr ht line
    simp only [Scene.answerAll, hnext]
    exact ih hfollows

/-- **A read.**  The lines that end in it are served, and the connection goes on unless what is left
has grown to the limit. -/
lemma Follows.receive_bytes (hr : sink.Reliable good) (ht : sink.Tracks seen)
    (h : scene.Follows good seen l before v) (rest chunk : Bytes) :
    ∃ scene', scene.receive sink rest (.bytes chunk) =
        ⟨if bufferLimit ≤ (Frames.ofBytes (rest ++ chunk)).rest.length then some .bufferFull
            else none,
          (Frames.ofBytes (rest ++ chunk)).rest, scene'⟩ ∧
      scene'.Follows good seen (l.received chunk.length) before
        (v.lines (Frames.ofBytes (rest ++ chunk)).requests) := by
  have hread : Follows good seen (l.received chunk.length) before v
      { scene with ledger := scene.ledger.received chunk.length } :=
    ⟨h.session_eq, by rw [h.ledger_eq]; rfl, h.good_sink, h.seen_eq⟩
  obtain ⟨served, hserved, hfollows⟩ :=
    hread.answerAll hr ht (Frames.ofBytes (rest ++ chunk)).requests
  refine ⟨served, ?_, hfollows⟩
  simp only [receive, hserved]

/-- **The end of the input.**  What is left is served as it is. -/
lemma Follows.receive_endOfInput (hr : sink.Reliable good) (ht : sink.Tracks seen)
    (h : scene.Follows good seen l before v) (rest : Bytes) :
    ∃ scene', scene.receive sink rest .endOfInput = ⟨some .disconnected, [], scene'⟩ ∧
      scene'.Follows good seen l before (v.line rest) := by
  obtain ⟨served, hserved, hfollows⟩ := h.answer hr ht rest
  refine ⟨served, ?_, hfollows⟩
  simp only [receive, hserved]

end Scene

end ExpiringStore
