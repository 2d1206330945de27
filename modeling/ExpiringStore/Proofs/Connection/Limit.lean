import ExpiringStore.Proofs.Connection.Stream
import Mathlib.Data.Nat.Find

/-!
# The limit on a line

A connection ends when it finds, after a read, that as many bytes as the limit follow the last line
feed.  So it depends on the borders between the reads: a line that is longer than the limit goes
through if its line feed comes with the same read.  What decides is how many bytes are left after
each read.  The first read after which these are too many is the last one; the lines that have ended
by then have been served, and nothing of what is left is.

As long as what is left stays below the limit the server is `Serving` the bytes so far
(`serving_take`), and the read that reaches the limit puts an end to it (`feed_take_succ_of_full`).
Whatever else arrives then makes no difference (`feed_of_ended`).
-/

namespace ExpiringStore

/-- The lines that have ended in a stream, each without a carriage return at its end. -/
def Service.endedLines (stream : Bytes) : List Bytes :=
  (stream.splitOn 0x0A).dropLast.map fun piece =>
    if piece.getLast? = some 0x0D then piece.dropLast else piece

lemma Service.endedLines_eq (stream : Bytes) :
    endedLines stream = (Frames.ofBytes stream).requests := by
  rw [endedLines, Frames.splitOn_eq, List.dropLast_concat]
  rfl

namespace Server

variable {τ : Type u} {sink : Sink τ} {good : τ → Prop} {seen : τ → Bytes} {start : Server τ}
  {index : Nat} {c : Connection τ}

/-! ## Endings -/

/-- Why a connection ended, if it has. -/
def ending? (s : Server τ) (index : Nat) : Option Ending := s.connections[index]?.bind (·.ending)

/-- Nothing arrives on a connection that has ended. -/
lemma feed_of_ended {s : Server τ} (h : s.connection? index = none) (arrivals : List Arrival) :
    s.feed sink index arrivals = s := by
  induction arrivals with
  | nil => rfl
  | cons arrival arrivals ih =>
    have harrive : s.arrive sink index arrival = s := by rw [arrive, h]
    rw [feed, List.foldl_cons, harrive]
    exact ih

lemma ending?_eq_none_of_connection? {s : Server τ} {c' : Connection τ}
    (h : s.connection? index = some c') : s.ending? index = none := by
  obtain ⟨hget, hopen⟩ := Option.filter_eq_some_iff.1 h
  rw [ending?, hget]
  exact Option.isNone_iff_eq_none.1 hopen

lemma connection?_eq_none_of_ending? {s : Server τ} {ending : Ending}
    (h : s.ending? index = some ending) : s.connection? index = none := by
  cases hconnection : s.connection? index with
  | none => rfl
  | some c' =>
    rw [ending?_eq_none_of_connection? hconnection] at h
    cases h

/-- The end of the input is no reason to end for a full buffer. -/
lemma ending?_arrive_endOfInput_ne {s : Server τ} (h : s.ending? index ≠ some .bufferFull) :
    (s.arrive sink index .endOfInput).ending? index ≠ some .bufferFull := by
  rw [arrive]
  cases hconnection : s.connection? index with
  | none => exact h
  | some c' =>
    obtain ⟨hget, hopen⟩ := Option.filter_eq_some_iff.1 hconnection
    obtain ⟨hindex, -⟩ := List.getElem?_eq_some_iff.1 hget
    simp only [ending?, setConnection, List.getElem?_set_self hindex, Option.bind_some,
      Connection.receive, hopen, if_true, Scene.receive]
    split <;> simp

/-! ## What is left after a read -/

/-- What follows the last line feed of the first `i` chunks. -/
def leftAfter (chunks : List Bytes) (i : Nat) : Bytes :=
  (chunks.take i).flatten.rtakeWhile (· ≠ 0x0A)

lemma leftAfter_eq (chunks : List Bytes) (i : Nat) :
    leftAfter chunks i = (Frames.ofBytes (chunks.take i).flatten).rest := by
  rw [Frames.rest_eq_rtakeWhile, leftAfter]

lemma isInfix_leftAfter (chunks : List Bytes) (i : Nat) :
    leftAfter chunks i <:+: chunks.flatten := by
  have hfirst : (chunks.take i).flatten <+: chunks.flatten :=
    ⟨(chunks.drop i).flatten, by rw [← List.flatten_append, List.take_append_drop]⟩
  exact (List.rtakeWhile_suffix _ _).isInfix.trans hfirst.isInfix

lemma lineFeed_notMem_leftAfter (chunks : List Bytes) (i : Nat) :
    (0x0A : UInt8) ∉ leftAfter chunks i := by
  rw [leftAfter_eq]
  exact Frames.lineFeed_notMem_rest _

/-- If one more read leaves more than before then there is one. -/
lemma exists_chunk {chunks : List Bytes} {i : Nat}
    (h : (leftAfter chunks i).length < (leftAfter chunks (i + 1)).length) :
    ∃ chunk, chunks.take (i + 1) = chunks.take i ++ [chunk] := by
  cases hchunk : chunks[i]? with
  | some chunk => exact ⟨chunk, by rw [List.take_add_one, hchunk, Option.toList_some]⟩
  | none =>
    have hsame : chunks.take (i + 1) = chunks.take i := by
      rw [List.take_add_one, hchunk, Option.toList_none, List.append_nil]
    rw [leftAfter, leftAfter, hsame] at h
    exact absurd h (Nat.lt_irrefl _)

section Serving

variable (hr : sink.Reliable good) (ht : sink.Tracks seen)
  (hc : start.connections[index]? = some c) (hopen : c.isOpen = true) (hrest : c.rest = [])
  (hgood : good c.sink) {chunks : List Bytes} {i : Nat}
  (hshort : ∀ j ≤ i, (leftAfter chunks j).length < bufferLimit)

include hr ht hc hopen hrest hgood hshort

/-- As long as the limit is not reached, the bytes so far have been served. -/
lemma serving_take : Serving good seen start index c (chunks.take i).flatten
    (start.feed sink index ((chunks.take i).map .bytes)) := by
  obtain ⟨hindex, -⟩ := List.getElem?_eq_some_iff.1 hc
  have hbegin : Serving good seen start index c [] start := .begin hc hopen hrest hgood
  refine hbegin.feed hr ht hindex fun front hfront => ?_
  have hlength : front.length ≤ i := hfront.length_le.trans (List.length_take_le i chunks)
  have hfirst : front = chunks.take front.length :=
    List.prefix_iff_eq_take.1 (hfront.trans (List.take_prefix i chunks))
  rw [List.nil_append, hfirst, ← leftAfter_eq]
  exact hshort front.length hlength

/-- **The read that reaches the limit** ends the connection, after the lines that it has ended. -/
lemma feed_take_succ_of_full (hfull : bufferLimit ≤ (leftAfter chunks (i + 1)).length) :
    let past := (chunks.take (i + 1)).flatten
    let v := (Service.begin ⟨start.stores, c.identity⟩).lines (Service.endedLines past)
    ∃ t, seen t = seen c.sink ++ v.bytes ∧
      ∀ later, start.feed sink index ((chunks.take (i + 1)).map .bytes ++ later) =
        { stores := v.session.stores
          ledger := ((start.ledger.received past.length).serving v).closed
          connections := start.connections.set index
            ⟨v.session.identity, leftAfter chunks (i + 1), t, some .bufferFull⟩ } := by
  obtain ⟨hindex, -⟩ := List.getElem?_eq_some_iff.1 hc
  obtain ⟨chunk, htake⟩ := exists_chunk ((hshort i (Nat.le_refl i)).trans_le hfull)
  have hpast : (chunks.take (i + 1)).flatten = (chunks.take i).flatten ++ chunk := by
    rw [htake, List.flatten_append, List.flatten_singleton]
  obtain ⟨t, harrive, -, hseen⟩ :=
    (serving_take hr ht hc hopen hrest hgood hshort).arrive_bytes hr ht hindex chunk
  rw [← hpast, ← leftAfter_eq, if_pos hfull, ← Service.endedLines_eq] at harrive
  rw [← hpast, ← Service.endedLines_eq] at hseen
  have hfed (later : List Arrival) :
      start.feed sink index ((chunks.take (i + 1)).map .bytes ++ later) =
        ((start.feed sink index ((chunks.take i).map .bytes)).arrive sink index
          (.bytes chunk)).feed sink index later := by
    rw [htake, List.map_append, feed_append, feed_append]
    rfl
  refine ⟨t, hseen, fun later => ?_⟩
  rw [hfed, harrive]
  refine feed_of_ended (connection?_eq_none_of_ending? (?_ : _ = some Ending.bufferFull)) later
  simp only [ending?, served, List.getElem?_set_self hindex, Option.bind_some]

/-- A connection that has not reached the limit holds what is left for a later line. -/
lemma connection?_of_short :
    ∃ c', (start.feed sink index ((chunks.take i).map .bytes)).connection? index = some c' ∧
      c'.rest = leftAfter chunks i := by
  obtain ⟨hindex, -⟩ := List.getElem?_eq_some_iff.1 hc
  obtain ⟨t, hs, -, -⟩ := serving_take hr ht hc hopen hrest hgood hshort
  refine ⟨_, by rw [hs, connection?_served hindex], ?_⟩
  rw [leftAfter_eq]

end Serving

/-! ## The main result -/

/-- A connection that reaches the limit has a first read after which it does. -/
lemma exists_first_full {chunks : List Bytes} {n : Nat}
    (h : bufferLimit ≤ (leftAfter chunks n).length) :
    ∃ i < n, bufferLimit ≤ (leftAfter chunks (i + 1)).length ∧
      ∀ j ≤ i, (leftAfter chunks j).length < bufferLimit := by
  have hex : ∃ i, bufferLimit ≤ (leftAfter chunks i).length := ⟨n, h⟩
  have hfirst := Nat.find_spec hex
  have hle : Nat.find hex ≤ n := Nat.find_min' hex h
  have hshort : ∀ j < Nat.find hex, (leftAfter chunks j).length < bufferLimit := fun j hj =>
    Nat.lt_of_not_le (Nat.find_min hex hj)
  cases hi : Nat.find hex with
  | zero =>
    -- nothing is left before the first read
    rw [hi] at hfirst
    have hnone : (leftAfter chunks 0).length = 0 := rfl
    exact absurd hfirst (by rw [hnone]; decide)
  | succ i =>
    rw [hi] at hfirst hle hshort
    exact ⟨i, hle, hfirst, fun j hj => hshort j (Nat.lt_succ_of_le hj)⟩

/-- The first reads, and those between them and the first `n`. -/
lemma take_append_drop_take {chunks : List Bytes} {i n : Nat} (h : i ≤ n) :
    chunks.take i ++ (chunks.take n).drop i = chunks.take n := by
  conv_rhs => rw [← List.take_append_drop i (chunks.take n), List.take_take, Nat.min_eq_left h]

section Limit

variable (hr : sink.Reliable good) (ht : sink.Tracks seen)
  (hc : start.connections[index]? = some c) (hopen : c.isOpen = true) (hrest : c.rest = [])
  (hgood : good c.sink) {chunks : List Bytes}

include hr ht hc hopen hrest hgood

lemma ending?_of_full {n : Nat} (hfull : bufferLimit ≤ (leftAfter chunks n).length)
    (later : List Arrival) :
    (start.feed sink index ((chunks.take n).map .bytes ++ later)).ending? index =
      some .bufferFull := by
  obtain ⟨i, hi, hfirst, hshort⟩ := exists_first_full hfull
  obtain ⟨hindex, -⟩ := List.getElem?_eq_some_iff.1 hc
  obtain ⟨t, -, hfed⟩ := feed_take_succ_of_full hr ht hc hopen hrest hgood hshort hfirst
  rw [← take_append_drop_take hi, List.map_append, List.append_assoc, hfed]
  simp only [ending?, List.getElem?_set_self hindex, Option.bind_some]

/-- A connection is open after so many reads exactly if none of them has reached the limit. -/
lemma connection?_isSome_iff (n : Nat) :
    ((start.feed sink index ((chunks.take n).map .bytes)).connection? index).isSome ↔
      ∀ j ≤ n, (leftAfter chunks j).length < bufferLimit := by
  constructor
  · intro hsome j hj
    refine Nat.lt_of_not_le fun hfull => ?_
    have hended := ending?_of_full hr ht hc hopen hrest hgood hfull
      (((chunks.take n).drop j).map .bytes)
    rw [← List.map_append, take_append_drop_take hj] at hended
    rw [connection?_eq_none_of_ending? hended] at hsome
    cases hsome
  · intro hshort
    obtain ⟨c', hc', -⟩ := connection?_of_short hr ht hc hopen hrest hgood hshort
    rw [hc', Option.isSome_some]

/-- A connection that never reaches the limit does not end for a full buffer. -/
lemma ending?_ne_of_short (hshort : ∀ i, (leftAfter chunks i).length < bufferLimit)
    {last : List Arrival} (hlast : last = [] ∨ last = [.endOfInput]) :
    (start.feed sink index (chunks.map .bytes ++ last)).ending? index ≠ some .bufferFull := by
  obtain ⟨c', hc', -⟩ := connection?_of_short hr ht hc hopen hrest hgood
    fun j (_ : j ≤ chunks.length) => hshort j
  rw [List.take_length] at hc'
  have hne : (start.feed sink index (chunks.map .bytes)).ending? index ≠ some .bufferFull := by
    rw [ending?_eq_none_of_connection? hc']
    exact nofun
  rw [feed_append]
  obtain rfl | rfl := hlast
  · exact hne
  · exact ending?_arrive_endOfInput_ne hne

end Limit

/-- **The limit is exact at the borders of reads.**  Bytes come in on an open connection with
nothing left from before, in `chunks`; `left i` is what follows the last line feed of the first `i`
of them.  The connection ends for a full buffer, at the latest when its input ends, exactly if
`left i` reaches the limit for some `i`.  After the first such `i` the lines that have ended so far
have been served in order and the client has their answers; nothing of `left i` has been run, no
other connection has changed, and whatever arrives later makes no difference.  Up to then the
connection is open, with `left i` in front of the next read, so that it never holds as many bytes as
the limit besides the bytes of one read.  It follows that no stream ends for a full buffer in which
all runs without a line feed are shorter than the limit, and that every stream does whose unended
line is not. -/
theorem feed_chunks_limit (hr : sink.Reliable good) (ht : sink.Tracks seen)
    (hc : start.connections[index]? = some c) (hopen : c.isOpen = true) (hrest : c.rest = [])
    (hgood : good c.sink) (chunks : List Bytes) :
    let left (i : Nat) := (chunks.take i).flatten.rtakeWhile (· ≠ 0x0A)
    let fed (arrivals : List Arrival) := start.feed sink index arrivals
    (∀ last, last = [] ∨ last = [.endOfInput] →
      ((fed (chunks.map .bytes ++ last)).ending? index = some .bufferFull ↔
        ∃ i, 65536 ≤ (left i).length)) ∧
    (∀ i, 65536 ≤ (left i).length → (∀ j < i, (left j).length < 65536) →
      let past := (chunks.take i).flatten
      let v := (Service.begin ⟨start.stores, c.identity⟩).lines (Service.endedLines past)
      ∃ t, seen t = seen c.sink ++ v.bytes ∧
        ∀ later, fed ((chunks.take i).map .bytes ++ later) =
          { stores := v.session.stores
            ledger := ((start.ledger.received past.length).serving v).closed
            connections := start.connections.set index
              ⟨v.session.identity, left i, t, some .bufferFull⟩ }) ∧
    (∀ i, ((fed ((chunks.take i).map .bytes)).connection? index).isSome ↔
      ∀ j ≤ i, (left j).length < 65536) ∧
    (∀ i c', (fed ((chunks.take i).map .bytes)).connection? index = some c' →
      c'.rest = left i ∧ ∀ chunk : Bytes, (c'.rest ++ chunk).length ≤ 65535 + chunk.length) ∧
    ((∀ run, run <:+: chunks.flatten → 0x0A ∉ run → run.length < 65536) →
      ∀ last, last = [] ∨ last = [.endOfInput] →
        (fed (chunks.map .bytes ++ last)).ending? index ≠ some .bufferFull) ∧
    (65536 ≤ (chunks.flatten.rtakeWhile (· ≠ 0x0A)).length →
      ∀ later, (fed (chunks.map .bytes ++ later)).ending? index = some .bufferFull) := by
  intro left fed
  have hiff : ∀ last, last = [] ∨ last = [.endOfInput] →
      ((fed (chunks.map .bytes ++ last)).ending? index = some .bufferFull ↔
        ∃ i, 65536 ≤ (left i).length) := by
    intro last hlast
    constructor
    · refine Function.mtr fun hnone => ?_
      simp only [not_exists, Nat.not_le] at hnone
      exact ending?_ne_of_short hr ht hc hopen hrest hgood hnone hlast
    · rintro ⟨i, hfull⟩
      have hend := ending?_of_full hr ht hc hopen hrest hgood hfull
        ((chunks.drop i).map .bytes ++ last)
      rwa [← List.append_assoc, ← List.map_append, List.take_append_drop] at hend
  refine ⟨hiff, ?_, connection?_isSome_iff hr ht hc hopen hrest hgood, ?_, ?_, ?_⟩
  · intro i hfull hshort
    obtain ⟨k, hk, hfirst, -⟩ := exists_first_full hfull
    -- `i` is the first read that reaches the limit, so it is read `k + 1`
    have hi : i = k + 1 := by
      refine Nat.le_antisymm (Nat.le_of_not_lt fun hlt => ?_) hk
      exact Nat.not_le.2 (hshort (k + 1) hlt) hfirst
    subst hi
    exact feed_take_succ_of_full hr ht hc hopen hrest hgood
      (fun j hj => hshort j (Nat.lt_succ_of_le hj)) hfull
  · intro i c' hc'
    have hsome : ((fed ((chunks.take i).map .bytes)).connection? index).isSome := by
      rw [hc', Option.isSome_some]
    have hshort := (connection?_isSome_iff hr ht hc hopen hrest hgood i).1 hsome
    obtain ⟨c'', hc'', hleft⟩ := connection?_of_short hr ht hc hopen hrest hgood hshort
    obtain rfl : c'' = c' := Option.some_inj.1 (hc''.symm.trans hc')
    refine ⟨hleft, fun chunk => ?_⟩
    have hlimit : (leftAfter chunks i).length < 65536 := hshort i (Nat.le_refl i)
    rw [hleft, List.length_append]
    omega
  · intro hruns last hlast hend
    obtain ⟨i, hfull⟩ := (hiff last hlast).1 hend
    have hshort := hruns _ (isInfix_leftAfter chunks i) (lineFeed_notMem_leftAfter chunks i)
    exact Nat.not_le.2 hshort hfull
  · intro hfull later
    have hlast : leftAfter chunks chunks.length = chunks.flatten.rtakeWhile (· ≠ 0x0A) := by
      rw [leftAfter, List.take_length]
    have hend := ending?_of_full hr ht hc hopen hrest hgood (hlast ▸ hfull) later
    rwa [List.take_length] at hend

/-- A line for `SET`, and then as many bytes as the limit in two reads.  The line feed after them
comes too late. -/
theorem feed_late_line_feed :
    let start : Server Peer := (Server.start (.empty .mixing .never .never .zero)).accept .fresh
    let c : Connection Peer := .fresh .fresh
    let run : Bytes := List.replicate 65535 0x61
    let chunks : List Bytes := [Utf8.encode "SET k v\n" ++ run, [0x61], [0x0A]]
    start.connections[0]? = some c ∧ c.isOpen = true ∧ c.rest = [] ∧ c.sink.present = true ∧
    ∃ t, let s := start.feed Peer.sink 0 (chunks.map .bytes ++ [.endOfInput])
      s.connections = [⟨none, run ++ [0x61], t, some .bufferFull⟩] ∧ s.ledger.requests = 1 ∧
      s.ledger.read = 65544 ∧ t.bytes = Utf8.encode "Success\n" := by
  intro start c run
  have hlength : run.length = 65535 := List.length_replicate
  have hrun : (0x0A : UInt8) ∉ run := fun h => by cases List.eq_of_mem_replicate h
  clear_value run
  intro chunks
  have hc : start.connections[0]? = some c := rfl
  have hframes (run : Bytes) (h : 0x0A ∉ run) :
      Frames.ofBytes (Utf8.encode "SET k v\n" ++ run) = ⟨[Utf8.encode "SET k v"], run⟩ := by
    have hfirst : Frames.ofBytes (Utf8.encode "SET k v\n") = ⟨[Utf8.encode "SET k v"], []⟩ := by
      decide
    rw [Frames.ofBytes_append, hfirst, List.nil_append, Frames.ofBytes_of_not_mem h]
    rfl
  have hrun' : (0x0A : UInt8) ∉ run ++ [0x61] := by
    rw [List.mem_append, not_or]
    exact ⟨hrun, by decide⟩
  have hone : (chunks.take 1).flatten = Utf8.encode "SET k v\n" ++ run := List.append_nil _
  have htwo : (chunks.take 2).flatten = Utf8.encode "SET k v\n" ++ (run ++ [0x61]) :=
    List.append_assoc _ _ _
  have hleft1 : leftAfter chunks 1 = run := by rw [leftAfter_eq, hone, hframes run hrun]
  have hleft2 : leftAfter chunks 2 = run ++ [0x61] := by rw [leftAfter_eq, htwo, hframes _ hrun']
  have hfull : 65536 ≤ (leftAfter chunks 2).length := by
    rw [hleft2, List.length_append, hlength, List.length_singleton]
  have hshort : ∀ j < 2, (leftAfter chunks j).length < 65536 := by
    intro j hj
    obtain rfl | rfl : j = 0 ∨ j = 1 := by omega
    · exact Nat.zero_lt_succ _
    · rw [hleft1, hlength]
      decide
  obtain ⟨-, hend, -⟩ := feed_chunks_limit peer_sink_reliable peer_sink_tracks hc rfl rfl rfl chunks
  obtain ⟨t, hbytes, hfed⟩ := hend 2 hfull hshort
  have hlines : Service.endedLines (chunks.take 2).flatten = [Utf8.encode "SET k v"] := by
    rw [Service.endedLines_eq, htwo, hframes _ hrun']
    rfl
  have hv : let v := (Service.begin ⟨start.stores, c.identity⟩).lines [Utf8.encode "SET k v"]
      v.session.identity = none ∧ v.requests = 1 ∧ v.bytes = Utf8.encode "Success\n" := by
    decide +kernel
  obtain ⟨hidentity, hrequests, hanswer⟩ := hv
  have hcount : (chunks.take 2).flatten.length = 65544 := by
    have hline : (Utf8.encode "SET k v\n").length = 8 := by decide
    rw [htwo, List.length_append, List.length_append, hline, hlength, List.length_singleton]
  rw [hlines] at hbytes hfed
  rw [hcount] at hfed
  beta_reduce at hfed
  refine ⟨hc, rfl, rfl, rfl, t, ?_⟩
  have hsplit : chunks.map Arrival.bytes ++ [.endOfInput] =
      (chunks.take 2).map .bytes ++ [.bytes [0x0A], .endOfInput] := rfl
  rw [hsplit, hfed, hidentity, ← hleft2, hbytes, hanswer]
  simp only [Ledger.serving, Ledger.closed, hrequests]
  exact ⟨rfl, rfl, UInt64.zero_add _, rfl⟩

end Server

end ExpiringStore
