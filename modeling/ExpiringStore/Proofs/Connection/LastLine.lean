import ExpiringStore.Proofs.Connection.Limit
import ExpiringStore.Proofs.Response.Line
import ExpiringStore.Proofs.Statement.Blank
import ExpiringStore.Proofs.Text.Utf8

/-!
# The end of the input as a line feed

What follows the last line feed is served when the input ends, as it is; had a line feed come first,
a carriage return in front of it would have been taken off.  This is the only difference between the
two ends of a stream, and it comes down to one line with and without a carriage return behind it
(`Service.alike_line_return`).  A carriage return is a blank byte and a blank character: it does not
change whether the line is passed over, whether it is UTF-8, or what its text means.  Only an error
can tell them apart, since it may name the place where the text ends.  So the two ends leave the
same session and the same counts behind, and send as many lines; they send the same bytes unless the
stream ends with a carriage return.
-/

namespace ExpiringStore

/-- Two texts of one meaning do the same, and are answered by equally many lines. -/
lemma Database.runRequest_congr {σ : Type u} (db : Database σ) (s : σ) {a b : String}
    (h : (parse a).toOption = (parse b).toOption) :
    (db.runRequest Sink.perfect s () a).result = (db.runRequest Sink.perfect s () b).result ∧
    (db.runRequest Sink.perfect s () a).state = (db.runRequest Sink.perfect s () b).state ∧
    (Sink.bytesOf (db.runRequest Sink.perfect s () a).events).count Response.lineFeed =
      (Sink.bytesOf (db.runRequest Sink.perfect s () b).events).count Response.lineFeed := by
  have hreliable := Sink.perfect_reliable
  cases ha : parse a with
  | ok statements =>
    cases hb : parse b with
    | ok others =>
      rw [ha, hb] at h
      obtain rfl : statements = others := Option.some.inj h
      have hrunA := db.runRequest_succeeds_of_ok hreliable s (t := ()) trivial ha
      have hrunB := db.runRequest_succeeds_of_ok hreliable s (t := ()) trivial hb
      rw [hrunA.result_eq, hrunA.state_eq, hrunA.bytes_eq, hrunB.result_eq, hrunB.state_eq,
        hrunB.bytes_eq]
      exact ⟨rfl, rfl, rfl⟩
    | error e =>
      rw [ha, hb] at h
      cases h
  | error e =>
    cases hb : parse b with
    | ok others =>
      rw [ha, hb] at h
      cases h
    | error e' =>
      have hrunA := db.runRequest_succeeds_of_error hreliable s (t := ()) trivial ha
      have hrunB := db.runRequest_succeeds_of_error hreliable s (t := ()) trivial hb
      rw [hrunA.result_eq, hrunA.state_eq, hrunA.bytes_eq, hrunB.result_eq, hrunB.state_eq,
        hrunB.bytes_eq, Response.count_lineFeed_line, Response.count_lineFeed_line]
      exact ⟨rfl, rfl, rfl⟩

namespace Service

/-- The two clients have been served the same, up to what their lines say. -/
structure Alike (v w : Service) : Prop where
  session_eq : v.session = w.session
  requests_eq : v.requests = w.requests
  statements_eq : v.statements = w.statements
  count_eq : v.bytes.count Response.lineFeed = w.bytes.count Response.lineFeed

lemma Alike.refl (v : Service) : v.Alike v := ⟨rfl, rfl, rfl, rfl⟩

/-! ## A carriage return behind a line -/

/-- **A carriage return behind a line** does not change what the line does. -/
theorem alike_line_return (v : Service) (line : Bytes) :
    (v.line (line ++ [0x0D])).Alike (v.line line) := by
  have hblank : (line ++ [0x0D]).all asciiBlanks.contains = line.all asciiBlanks.contains := by
    simp [asciiBlanks]
  have hdecode : Utf8.decode? (line ++ [0x0D]) = (Utf8.decode? line).map (· ++ "\r") :=
    Utf8.decode?_concat (by decide) line
  rw [Service.line, Service.line, hblank, hdecode]
  split_ifs
  · exact .refl v
  cases Utf8.decode? line with
  | none => exact .refl _
  | some text =>
    have hreturn : Blanks "\r".toList := by
      rintro c hc
      obtain rfl : c = '\r' := by simpa using hc
      decide
    obtain ⟨hresult, hstate, hcount⟩ :=
      Session.database.runRequest_congr v.session (toOption_parse_append hreturn text)
    refine ⟨hstate, rfl, ?_, ?_⟩
    · simp only [Option.map_some, hresult]
    · simp only [Option.map_some, List.count_append, hcount]

/-! ## A line feed behind a stream -/

lemma line_nil (v : Service) : v.line [] = v := rfl

/-- A line feed behind a stream ends what is left and leaves nothing. -/
lemma stream_concat_lineFeed (v : Service) (bytes : Bytes) :
    v.stream (bytes ++ [0x0A]) =
      (v.lines (Frames.ofBytes bytes).requests).line
        (Frames.withoutReturn (Frames.ofBytes bytes).rest) := by
  have hlast := Frames.ofBytes_concat_lineFeed (Frames.lineFeed_notMem_rest bytes)
  rw [stream_eq, Frames.requests_append, Frames.rest_append, hlast, lines_append, line_nil]
  rfl

lemma alike_stream_lineFeed (v : Service) (bytes : Bytes) :
    (v.stream bytes).Alike (v.stream (bytes ++ [0x0A])) := by
  rw [stream_eq, stream_concat_lineFeed, Frames.withoutReturn]
  split_ifs with hreturn
  · obtain ⟨front, hfront⟩ := List.getLast?_eq_some_iff.1 hreturn
    rw [hfront, List.dropLast_concat]
    exact alike_line_return _ front
  · exact .refl _

lemma stream_lineFeed_of_getLast? (v : Service) {bytes : Bytes}
    (h : bytes.getLast? ≠ some 0x0D) : v.stream (bytes ++ [0x0A]) = v.stream bytes := by
  have hrest : (Frames.ofBytes bytes).rest.getLast? ≠ some 0x0D := by
    intro hlast
    obtain ⟨front, hfront⟩ : (Frames.ofBytes bytes).rest <:+ bytes := by
      rw [Frames.rest_eq_rtakeWhile]
      exact List.rtakeWhile_suffix _ _
    rw [← hfront, List.getLast?_append, hlast] at h
    exact h rfl
  rw [stream_concat_lineFeed, stream_eq, Frames.withoutReturn, if_neg hrest]

end Service

/-! ## Connections -/

/-- A run without a line feed does not reach into a line feed behind the bytes. -/
lemma isInfix_of_concat_lineFeed {run bytes : Bytes} (h : run <:+: bytes ++ [0x0A])
    (hrun : (0x0A : UInt8) ∉ run) : run <:+: bytes := by
  rcases List.infix_concat_iff.1 h with hend | hwithin
  · rcases List.suffix_concat_iff.1 hend with rfl | ⟨front, rfl, -⟩
    · exact List.nil_infix
    · exact absurd (List.mem_append_right front (List.mem_singleton_self _)) hrun
  · exact hwithin

namespace Server

variable {τ : Type u} {sink : Sink τ} {good : τ → Prop} {seen : τ → Bytes} {start : Server τ}
  {index : Nat} {c : Connection τ}

lemma length_leftAfter_lt {stream : Bytes}
    (hruns : ∀ run, run <:+: stream → 0x0A ∉ run → run.length < bufferLimit) {chunks : List Bytes}
    (hchunks : chunks.flatten = stream ∨ chunks.flatten = stream ++ [0x0A]) (i : Nat) :
    (leftAfter chunks i).length < bufferLimit := by
  have hnone := lineFeed_notMem_leftAfter chunks i
  have hinfix := isInfix_leftAfter chunks i
  refine hruns _ ?_ hnone
  rcases hchunks with hchunks | hchunks
  · rwa [hchunks] at hinfix
  · rw [hchunks] at hinfix
    exact isInfix_of_concat_lineFeed hinfix hnone

section Ended

variable (hr : sink.Reliable good) (ht : sink.Tracks seen)
  (hc : start.connections[index]? = some c) (hopen : c.isOpen = true) (hrest : c.rest = [])
  (hgood : good c.sink)

include hr ht hc hopen hrest hgood

/-- The end of the input after reads that stay below the limit. -/
lemma feed_endOfInput_of_short {chunks : List Bytes}
    (hshort : ∀ i, (leftAfter chunks i).length < bufferLimit) :
    let v := (Service.begin ⟨start.stores, c.identity⟩).stream chunks.flatten
    ∃ t, start.feed sink index (chunks.map .bytes ++ [.endOfInput]) =
        { stores := v.session.stores
          ledger := ((start.ledger.received chunks.flatten.length).serving v).closed
          connections := start.connections.set index
            ⟨v.session.identity, [], t, some .disconnected⟩ } ∧
      seen t = seen c.sink ++ v.bytes := by
  obtain ⟨hindex, -⟩ := List.getElem?_eq_some_iff.1 hc
  have hserving := serving_take hr ht hc hopen hrest hgood fun j (_ : j ≤ chunks.length) => hshort j
  rw [List.take_length] at hserving
  obtain ⟨t, hs, hgoodt, hseen⟩ := hserving
  obtain ⟨scene, hreceive, hfollows⟩ :=
    (follows_of_serving (start.ledger.received chunks.flatten.length) _ hgoodt _
      hseen).receive_endOfInput hr ht (Frames.ofBytes chunks.flatten).rest
  rw [Service.stream_eq]
  refine ⟨scene.sink, ?_, hfollows.seen_eq⟩
  rw [feed_append, hs]
  exact arrive_served hindex hreceive hfollows

end Ended

/-- **The end of the input acts as a line feed.**  A stream comes in on an open connection with
nothing left from before, and none of its runs without a line feed, what it ends with included,
reaches the limit.  It comes in twice from the same start, once as it is and once with a line feed
behind it, in any chunks, and then the input ends.  Both times the connection ends as disconnected,
and the stores, the identity and the counts of requests and of statements are the same.  The client
is sent equally many lines, and the same bytes unless the stream ends with a carriage return. -/
theorem feed_endOfInput_as_lineFeed (hr : sink.Reliable good) (ht : sink.Tracks seen)
    (hc : start.connections[index]? = some c) (hopen : c.isOpen = true) (hrest : c.rest = [])
    (hgood : good c.sink) {stream : Bytes}
    (hruns : ∀ run, run <:+: stream → 0x0A ∉ run → run.length < 65536) {chunks chunks' : List Bytes}
    (hchunks : chunks.flatten = stream) (hchunks' : chunks'.flatten = stream ++ [0x0A]) :
    let ended := start.feed sink index (chunks.map .bytes ++ [.endOfInput])
    let fed := start.feed sink index (chunks'.map .bytes ++ [.endOfInput])
    ended.stores = fed.stores ∧
    ended.ledger.requests = fed.ledger.requests ∧
    ended.ledger.statements = fed.ledger.statements ∧
    ∃ last last' answer answer',
      ended.connections[index]? = some last ∧ fed.connections[index]? = some last' ∧
      last.ending = some .disconnected ∧ last'.ending = some .disconnected ∧
      last.identity = last'.identity ∧
      seen last.sink = seen c.sink ++ answer ∧ seen last'.sink = seen c.sink ++ answer' ∧
      answer.count Response.lineFeed = answer'.count Response.lineFeed ∧
      (stream.getLast? ≠ some 0x0D → answer = answer') := by
  intro ended fed
  obtain ⟨hindex, -⟩ := List.getElem?_eq_some_iff.1 hc
  obtain ⟨t, hended, hseen⟩ := feed_endOfInput_of_short hr ht hc hopen hrest hgood
    (length_leftAfter_lt hruns (.inl hchunks))
  obtain ⟨t', hfed, hseen'⟩ := feed_endOfInput_of_short hr ht hc hopen hrest hgood
    (length_leftAfter_lt hruns (.inr hchunks'))
  rw [hchunks] at hended hseen
  rw [hchunks'] at hfed hseen'
  generalize Service.begin ⟨start.stores, c.identity⟩ = first at *
  have halike := first.alike_stream_lineFeed stream
  have hsame (hlast : stream.getLast? ≠ some 0x0D) :
      first.stream (stream ++ [0x0A]) = first.stream stream :=
    first.stream_lineFeed_of_getLast? hlast
  generalize first.stream stream = v at *
  generalize first.stream (stream ++ [0x0A]) = v' at *
  rw [show ended = _ from hended, show fed = _ from hfed]
  refine ⟨?_, ?_, ?_, ⟨v.session.identity, [], t, some .disconnected⟩,
    ⟨v'.session.identity, [], t', some .disconnected⟩, v.bytes, v'.bytes,
    List.getElem?_set_self hindex, List.getElem?_set_self hindex, rfl, rfl, ?_, hseen, hseen',
    halike.count_eq, fun hlast => by rw [hsame hlast]⟩
  · simp only [halike.session_eq]
  · simp only [Ledger.closed, Ledger.serving, Ledger.received, halike.requests_eq]
  · simp only [Ledger.closed, Ledger.serving, Ledger.received, halike.statements_eq]
  · simp only [halike.session_eq]

/-- A stream that ends with a statement, and one that ends with a carriage return behind a mistake,
each with and without a line feed behind it. -/
theorem feed_last_line_of_two_streams :
    let start : Server Peer := (Server.start (.empty .mixing .never .never .zero)).accept .fresh
    let c : Connection Peer := .fresh .fresh
    let stream := Utf8.encode "SET k v\nGET k"
    let mistaken := Utf8.encode "SET k v\nGET\r"
    let ended (chunks : List Bytes) :=
      start.feed Peer.sink 0 (chunks.map .bytes ++ [.endOfInput])
    start.connections[0]? = some c ∧ c.isOpen = true ∧ c.rest = [] ∧ c.sink.present = true ∧
    (∀ run, run <:+: stream → 0x0A ∉ run → run.length < 65536) ∧
    (∀ run, run <:+: mistaken → 0x0A ∉ run → run.length < 65536) ∧
    stream.getLast? ≠ some 0x0D ∧
    (∃ last last', (ended [stream]).connections[0]? = some last ∧
      (ended [stream, [0x0A]]).connections[0]? = some last' ∧
      last.sink.bytes = last'.sink.bytes) ∧
    ∃ last last', (ended [mistaken]).connections[0]? = some last ∧
      (ended [mistaken ++ [0x0A]]).connections[0]? = some last' ∧
      last.sink.bytes.count 0x0A = last'.sink.bytes.count 0x0A := by
  intro start c stream mistaken ended
  have hc : start.connections[0]? = some c := rfl
  have hruns (text : Bytes) (h : text.length < 65536) (run : Bytes) (hrun : run <:+: text)
      (_ : 0x0A ∉ run) : run.length < 65536 := hrun.length_le.trans_lt h
  have hstream := hruns stream (by decide)
  have hmistaken := hruns mistaken (by decide)
  have hlast : stream.getLast? ≠ some 0x0D := by decide
  have hnone : c.sink.bytes = [] := rfl
  obtain ⟨-, -, -, last, last', answer, answer', hended, hfed, -, -, -, hseen, hseen', -, hsame⟩ :=
    feed_endOfInput_as_lineFeed peer_sink_reliable peer_sink_tracks hc rfl rfl rfl hstream
      (show [stream].flatten = stream by simp)
      (show [stream, [0x0A]].flatten = stream ++ [0x0A] by simp)
  obtain ⟨-, -, -, wrong, wrong', told, told', hwrong, hwrong', -, -, -, htold, htold', hcount,
      -⟩ :=
    feed_endOfInput_as_lineFeed peer_sink_reliable peer_sink_tracks hc rfl rfl rfl hmistaken
      (show [mistaken].flatten = mistaken by simp)
      (show [mistaken ++ [0x0A]].flatten = mistaken ++ [0x0A] by simp)
  refine ⟨hc, rfl, rfl, rfl, hstream, hmistaken, hlast, ⟨last, last', hended, hfed, ?_⟩,
    ⟨wrong, wrong', hwrong, hwrong', ?_⟩⟩
  · rw [hseen, hseen', hsame hlast]
  · rw [htold, htold', hnone]
    exact hcount

end Server

end ExpiringStore
