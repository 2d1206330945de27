import ExpiringStore.Connection.Client
import ExpiringStore.Proofs.Connection.Service
import Mathlib.Data.List.Infix

/-!
# A stream of bytes in any chunks

A connection sees a stream in chunks whose borders may fall anywhere: within a character, between a
carriage return and its line feed, within a quoted text.  As long as its sink does not fail, and no
read leaves as many bytes behind the last line feed as the limit allows, the borders cannot be
noticed.  The connection does to the stores, the identity, the ledger and its client what
`Service.stream` does with the whole stream.

The invariant is `Serving`: after the bytes `past`, the server is where serving the lines of `past`
takes it, and what follows their last line feed is left for later.  One read keeps it
(`Serving.arrive`), hence so does any list of reads (`Serving.feed`).
-/

namespace ExpiringStore.Server

variable {τ : Type u}

/-- What becomes of the server when things arrive one after another on one connection. -/
def feed (s : Server τ) (sink : Sink τ) (index : Nat) (arrivals : List Arrival) : Server τ :=
  arrivals.foldl (fun s arrival => s.arrive sink index arrival) s

lemma feed_append (s : Server τ) (sink : Sink τ) (index : Nat) (a b : List Arrival) :
    s.feed sink index (a ++ b) = (s.feed sink index a).feed sink index b :=
  List.foldl_append

/-- The server `start` after a connection at `index`, with sink `t`, has served what `v` says and
has been sent `count` bytes. -/
def served (start : Server τ) (index count : Nat) (v : Service) (rest : Bytes) (t : τ)
    (ending : Option Ending) : Server τ where
  stores := v.session.stores
  ledger := (start.ledger.received count).serving v
  connections := start.connections.set index ⟨v.session.identity, rest, t, ending⟩

/-- After the bytes `past` on the connection `c` at `index`, the server `s` is where the lines of
`past` take the server `start`. -/
def Serving (good : τ → Prop) (seen : τ → Bytes) (start : Server τ) (index : Nat)
    (c : Connection τ) (past : Bytes) (s : Server τ) : Prop :=
  let v := (Service.begin ⟨start.stores, c.identity⟩).lines (Frames.ofBytes past).requests
  ∃ t, s = start.served index past.length v (Frames.ofBytes past).rest t none ∧ good t ∧
    seen t = seen c.sink ++ v.bytes

lemma connection?_served {start : Server τ} {index : Nat}
    (hindex : index < start.connections.length) (count : Nat) (v : Service) (rest : Bytes) (t : τ) :
    (start.served index count v rest t none).connection? index =
      some ⟨v.session.identity, rest, t, none⟩ := by
  rw [connection?, served, List.getElem?_set_self hindex]
  rfl

variable {sink : Sink τ} {good : τ → Prop} {seen : τ → Bytes} {start s : Server τ} {index : Nat}
  {c : Connection τ} {past : Bytes}

lemma Serving.begin (hc : start.connections[index]? = some c) (hopen : c.isOpen = true)
    (hrest : c.rest = []) (hgood : good c.sink) :
    Serving good seen start index c [] start := by
  obtain ⟨hindex, hget⟩ := List.getElem?_eq_some_iff.1 hc
  have hself : (⟨c.identity, [], c.sink, none⟩ : Connection τ) = c := by
    rw [Connection.isOpen, Option.isNone_iff_eq_none] at hopen
    rw [← hrest, ← hopen]
  refine ⟨c.sink, ?_, hgood, (List.append_nil _).symm⟩
  simp only [served, Frames.ofBytes, Frames.requests, List.foldr_nil, List.map_nil, Service.lines,
    List.foldl_nil, List.length_nil, Ledger.received_zero, Ledger.serving_begin]
  rw [Service.begin, hself, ← hget, List.set_getElem_self]

/-- The scene in which a connection that has been served takes in what arrives. -/
lemma follows_of_serving {t : τ} (l : Ledger) (v : Service) (hgood : good t) (before : Bytes)
    (hseen : seen t = before ++ v.bytes) :
    Scene.Follows good seen l before v ⟨⟨v.session.stores, v.session.identity⟩, l.serving v, t⟩ :=
  ⟨rfl, rfl, hgood, hseen⟩

/-- What the scene of a connection makes of an arrival is what becomes of the server; an ending is
entered into the ledger besides. -/
lemma arrive_served (hindex : index < start.connections.length) {count count' : Nat}
    {v v' : Service} {rest rest' before : Bytes} {t : τ} {arrival : Arrival}
    {ending : Option Ending} {scene : Scene τ}
    (hreceive : Scene.receive sink ⟨⟨v.session.stores, v.session.identity⟩,
      (start.ledger.received count).serving v, t⟩ rest arrival = ⟨ending, rest', scene⟩)
    (hfollows : scene.Follows good seen (start.ledger.received count') before v') :
    (start.served index count v rest t none).arrive sink index arrival =
      let next := start.served index count' v' rest' scene.sink ending
      { next with ledger := if ending.isSome then next.ledger.closed else next.ledger } := by
  rw [arrive, connection?_served hindex]
  simp only [Connection.receive, Connection.isOpen, Option.isNone_none, if_true]
  simp only [served, setConnection, List.set_set, hreceive, hfollows.session_eq,
    hfollows.ledger_eq]

/-- **One read.**  The server is where the lines of all bytes so far take it, and the connection has
ended if what is left has grown to the limit. -/
lemma Serving.arrive_bytes (hr : sink.Reliable good) (ht : sink.Tracks seen)
    (hindex : index < start.connections.length) (h : Serving good seen start index c past s)
    (chunk : Bytes) :
    let v := (Service.begin ⟨start.stores, c.identity⟩).lines
      (Frames.ofBytes (past ++ chunk)).requests
    let rest := (Frames.ofBytes (past ++ chunk)).rest
    let next (t : τ) (ending : Option Ending) :=
      start.served index (past ++ chunk).length v rest t ending
    ∃ t, s.arrive sink index (.bytes chunk) =
        (if bufferLimit ≤ rest.length then
          { next t (some .bufferFull) with ledger := (next t (some .bufferFull)).ledger.closed }
        else next t none) ∧
      good t ∧ seen t = seen c.sink ++ v.bytes := by
  obtain ⟨t, rfl, hgood, hseen⟩ := h
  obtain ⟨scene, hreceive, hfollows⟩ :=
    (follows_of_serving (start.ledger.received past.length) _ hgood _ hseen).receive_bytes hr ht
      (Frames.ofBytes past).rest chunk
  rw [Ledger.received_received] at hfollows
  simp only [Frames.requests_append past chunk, Service.lines_append, Frames.rest_append past chunk,
    List.length_append]
  refine ⟨scene.sink, ?_, hfollows.good_sink, hfollows.seen_eq⟩
  by_cases hfull : bufferLimit ≤ (Frames.ofBytes ((Frames.ofBytes past).rest ++ chunk)).rest.length
  · rw [if_pos hfull] at hreceive ⊢
    exact arrive_served hindex hreceive hfollows
  · rw [if_neg hfull] at hreceive ⊢
    exact arrive_served hindex hreceive hfollows

/-- **A read that stays below the limit keeps the invariant.** -/
lemma Serving.arrive (hr : sink.Reliable good) (ht : sink.Tracks seen)
    (hindex : index < start.connections.length) (h : Serving good seen start index c past s)
    (chunk : Bytes) (hshort : (Frames.ofBytes (past ++ chunk)).rest.length < bufferLimit) :
    Serving good seen start index c (past ++ chunk) (s.arrive sink index (.bytes chunk)) := by
  obtain ⟨t, harrive, hgood, hseen⟩ := h.arrive_bytes hr ht hindex chunk
  rw [if_neg (Nat.not_le.2 hshort)] at harrive
  exact ⟨t, harrive, hgood, hseen⟩

lemma Serving.feed (hr : sink.Reliable good) (ht : sink.Tracks seen)
    (hindex : index < start.connections.length) (h : Serving good seen start index c past s)
    {chunks : List Bytes} (hshort : ∀ front, front <+: chunks →
      (Frames.ofBytes (past ++ front.flatten)).rest.length < bufferLimit) :
    Serving good seen start index c (past ++ chunks.flatten)
      (s.feed sink index (chunks.map .bytes)) := by
  induction chunks generalizing past s with
  | nil => simpa [Server.feed] using h
  | cons chunk chunks ih =>
    have hfirst : (Frames.ofBytes (past ++ chunk)).rest.length < bufferLimit := by
      simpa using hshort [chunk] (List.prefix_append [chunk] chunks)
    rw [List.flatten_cons, ← List.append_assoc]
    refine ih (h.arrive hr ht hindex chunk hfirst) fun front hfront => ?_
    simpa using hshort (chunk :: front) (List.prefix_cons_inj chunk |>.2 hfront)

lemma Serving.isSome_connection? (hindex : index < start.connections.length)
    (h : Serving good seen start index c past s) : (s.connection? index).isSome := by
  obtain ⟨t, rfl, -, -⟩ := h
  rw [connection?_served hindex]
  rfl

/-! ## The main result -/

/-- **Framing does not depend on how the bytes arrive.**  A stream comes in on an open connection
with nothing left from before, in chunks none of which leaves as many bytes behind the last line
feed as the limit, and then the input ends.  The connection stays open up to the end of the input
and then ends as disconnected.  The stores, the identity, the bytes sent to the client and the
counts of requests, statements and sent bytes are those of serving the stream line by line; no
other connection is changed. -/
theorem feed_chunks_eq_stream (hr : sink.Reliable good) (ht : sink.Tracks seen)
    (hc : start.connections[index]? = some c) (hopen : c.isOpen = true) (hrest : c.rest = [])
    (hgood : good c.sink) {chunks : List Bytes}
    (hshort : ∀ front, front <+: chunks →
      (front.flatten.rtakeWhile (· ≠ 0x0A)).length < bufferLimit) :
    let v := (Service.begin ⟨start.stores, c.identity⟩).stream chunks.flatten
    (∀ front, front <+: chunks →
      ((start.feed sink index (front.map .bytes)).connection? index).isSome) ∧
    ∃ t, start.feed sink index (chunks.map .bytes ++ [.endOfInput]) =
        { stores := v.session.stores
          ledger := ((start.ledger.received chunks.flatten.length).serving v).closed
          connections := start.connections.set index
            ⟨v.session.identity, [], t, some .disconnected⟩ } ∧
      seen t = seen c.sink ++ v.bytes := by
  obtain ⟨hindex, -⟩ := List.getElem?_eq_some_iff.1 hc
  have hbegin : Serving good seen start index c [] start := .begin hc hopen hrest hgood
  have hserving : ∀ front, front <+: chunks → Serving good seen start index c front.flatten
      (start.feed sink index (front.map .bytes)) := by
    intro front hfront
    refine hbegin.feed hr ht hindex fun first hfirst => ?_
    rw [List.nil_append, Frames.rest_eq_rtakeWhile]
    exact hshort first (hfirst.trans hfront)
  refine ⟨fun front hfront => (hserving front hfront).isSome_connection? hindex, ?_⟩
  obtain ⟨t, hs, hgoodt, hseen⟩ := hserving chunks (List.prefix_refl chunks)
  obtain ⟨scene, hreceive, hfollows⟩ :=
    (follows_of_serving (start.ledger.received chunks.flatten.length) _ hgoodt _
      hseen).receive_endOfInput hr ht (Frames.ofBytes chunks.flatten).rest
  rw [Service.stream_eq]
  refine ⟨scene.sink, ?_, hfollows.seen_eq⟩
  rw [feed_append, hs]
  exact arrive_served hindex hreceive hfollows

lemma peer_sink_reliable : Peer.sink.Reliable (·.present = true) where
  write p b bytes hp := ⟨bytes.length, { p with received := (b :: bytes) :: p.received },
    by simp [Peer.sink, hp], hp⟩
  flush p hp := ⟨p, by simp [Peer.sink, hp], hp⟩

lemma peer_sink_tracks : Peer.sink.Tracks Peer.bytes where
  write p bytes := by
    cases hp : p.present <;> simp [Peer.sink, Peer.bytes, Sink.taken, hp]
  flush p := rfl

/-- A stream with a line for `SET`, a line that is not UTF-8 and an unended `GET`; the first border
falls within a character, the second between a carriage return and its line feed. -/
theorem feed_three_chunks :
    let start : Server Peer := (Server.start (.empty .mixing .never .never .zero)).accept .fresh
    let c : Connection Peer := .fresh .fresh
    let chunks : List Bytes := [Utf8.encode "SET k " ++ [0xC3], [0xA9, 0x0D],
      [0x0A, 0xFF, 0x0A] ++ Utf8.encode "GET k"]
    start.connections[0]? = some c ∧ c.isOpen = true ∧ c.rest = [] ∧ c.sink.present = true ∧
    (∀ front, front <+: chunks → (front.flatten.rtakeWhile (· ≠ 0x0A)).length < bufferLimit) ∧
    ∃ t, let s := start.feed Peer.sink 0 (chunks.map .bytes ++ [.endOfInput])
      s.connections = [⟨none, [], t, some .disconnected⟩] ∧ s.ledger.requests = 3 ∧
      t.bytes = Utf8.encode "Success\nERROR: request is not valid UTF-8\n[\"é\"]\n" := by
  intro start c chunks
  have hshort : ∀ front, front <+: chunks →
      (front.flatten.rtakeWhile (· ≠ 0x0A)).length < bufferLimit := by
    have hall : ∀ front ∈ chunks.inits,
        (front.flatten.rtakeWhile (· ≠ 0x0A)).length < bufferLimit := by decide
    exact fun front hfront => hall front ((List.mem_inits front chunks).2 hfront)
  have hc : start.connections[0]? = some c := rfl
  have hv : let v := (Service.begin ⟨start.stores, c.identity⟩).stream chunks.flatten
      v.session.identity = none ∧ v.requests = 3 ∧
      v.bytes = Utf8.encode "Success\nERROR: request is not valid UTF-8\n[\"é\"]\n" := by
    decide +kernel
  obtain ⟨hidentity, hrequests, hbytes⟩ := hv
  obtain ⟨-, t, hs, ht⟩ := feed_chunks_eq_stream peer_sink_reliable peer_sink_tracks hc rfl rfl rfl
    hshort
  refine ⟨hc, rfl, rfl, rfl, hshort, t, ?_⟩
  rw [hs, ht]
  simp only [Ledger.serving, Ledger.closed, hidentity, hrequests, hbytes]
  exact ⟨rfl, rfl, rfl⟩

end ExpiringStore.Server
