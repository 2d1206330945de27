import ExpiringStore.Proofs.Connection.Handled
import ExpiringStore.Proofs.Connection.Limit

/-!
# The ledger of a server is exact

The counts of a ledger are moved by one call after another while connections are taken up, are read
from, answer requests and end, in any order.  They are compared here with the run itself.  A
`Moment` is an event in the course of a run with the server before it; what arrived at that moment,
which requests were dealt with then, and which connection ended are read off it.  Whatever clients
do comes down to such events (`exists_run_of_client`).

One arrival changes the ledger by what arrived, by what is entered for the requests that were dealt
with, and by one ending if there was one (`exists_arrive`).  So after every run each count is the
sum over its moments, and the active connections are those that are open (`ledger_run`).  A
connection ends at one moment at most (`countP_closes_run`), and the requests that are dealt with on
it are those of the bytes that arrived on it, up to the first one that was cut short (`framed_run`).
-/

namespace ExpiringStore

namespace Arrival

/-- The bytes that arrive. -/
def content : Arrival → Bytes
  | bytes chunk => chunk
  | endOfInput => []
  | failure _ => []

/-- The requests that an arrival makes complete, while `rest` is left from before. -/
def due (rest : Bytes) : Arrival → List Bytes
  | bytes chunk => (Frames.ofBytes (rest ++ chunk)).requests
  | endOfInput => [rest]
  | failure _ => []

/-- What an arrival leaves for later. -/
def left (rest : Bytes) : Arrival → Bytes
  | bytes chunk => (Frames.ofBytes (rest ++ chunk)).rest
  | endOfInput => []
  | failure _ => rest

/-- How a connection ends after an arrival whose requests have been answered, if it does. -/
def ending (rest : Bytes) : Arrival → Option Ending
  | bytes chunk =>
    if bufferLimit ≤ (Frames.ofBytes (rest ++ chunk)).rest.length then some .bufferFull else none
  | endOfInput => some .disconnected
  | failure fault => some (.failed fault)

end Arrival

/-- Whatever arrives, the requests that it makes complete are dealt with, and the first one that is
cut short ends the connection. -/
lemma Scene.receive_eq {τ : Type u} (sink : Sink τ) (scene : Scene τ) (rest : Bytes)
    (arrival : Arrival) :
    let outcome := Scene.answerAll sink
      { scene with ledger := scene.ledger.received arrival.content.length } (arrival.due rest)
    scene.receive sink rest arrival =
      ⟨outcome.1.elim (arrival.ending rest) fun fault => some (.failed fault), arrival.left rest,
        outcome.2⟩ := by
  have hnone : { scene with ledger := scene.ledger.received 0 } = scene := by
    rw [Ledger.received_zero]
  cases arrival with
  | bytes chunk =>
    simp only [receive, Arrival.content, Arrival.due]
    rcases answerAll sink _ _ with ⟨fault | fault, next⟩ <;> rfl
  | endOfInput =>
    simp only [receive, Arrival.content, Arrival.due, List.length_nil, hnone, answerAll]
    rcases scene.answer sink rest with ⟨fault | fault, next⟩ <;> rfl
  | failure fault =>
    simp only [receive, Arrival.content, Arrival.due, List.length_nil, hnone]
    rfl

namespace Server

variable {τ : Type u}

/-! ## Runs -/

/-- What can happen to a server. -/
inductive Event (τ : Type u) where
  /-- A connection is taken up. -/
  | accept (t : τ)
  /-- Something arrives on a connection. -/
  | arrive (index : Nat) (arrival : Arrival)
  /-- Something happens at the other end of a connection. -/
  | alter (index : Nat) (f : τ → τ)
  /-- Something happens to the stores: time passes, entries are swept away, an account is added. -/
  | meanwhile (f : Stores → Stores)

def Event.isAccept : Event τ → Bool
  | accept _ => true
  | _ => false

/-- The server after something has happened at the other end of a connection. -/
def alter (s : Server τ) (index : Nat) (f : τ → τ) : Server τ :=
  match s.connection? index with
  | none => s
  | some c => s.setConnection index { c with sink := f c.sink }

variable (sink : Sink τ)

def step (s : Server τ) : Event τ → Server τ
  | .accept t => s.accept t
  | .arrive index arrival => s.arrive sink index arrival
  | .alter index f => s.alter index f
  | .meanwhile f => { s with stores := f s.stores }

def run (s : Server τ) (events : List (Event τ)) : Server τ := events.foldl (step sink) s

lemma withPeer_eq_step (s : Server Peer) (index : Nat) (f : Peer → Peer) :
    s.withPeer index f = s.step Peer.sink (.alter index f) := by
  rw [withPeer, step, alter]
  cases s.connection? index <;> rfl

/-- Whatever a client does is a run. -/
theorem exists_run_of_client (s : Server Peer) (index : Nat) (data : Bytes) :
    ∀ s' ∈ [s.send index data, s.close index, s.vanish index data, s.hangUp index data],
      ∃ events, s' = s.run Peer.sink events := by
  let forget : Event Peer := .alter index fun p => { p with received := [] }
  let leave : Event Peer := .alter index fun p => { p with present := false }
  have hsend : s.send index data = s.run Peer.sink [forget, .arrive index (.bytes data)] := by
    rw [send, forgetReceived, withPeer_eq_step]
    rfl
  intro s' hs'
  simp only [List.mem_cons, List.not_mem_nil, or_false] at hs'
  obtain rfl | rfl | rfl | rfl := hs'
  · exact ⟨_, hsend⟩
  · refine ⟨[forget, .arrive index .endOfInput], ?_⟩
    rw [close, forgetReceived, withPeer_eq_step]
    rfl
  · rw [vanish, hsend]
    split
    · exact ⟨_, rfl⟩
    · split_ifs
      · refine ⟨[forget, .arrive index (.bytes data), leave, .arrive index .endOfInput], ?_⟩
        rw [Server.leave, withPeer_eq_step]
        rfl
      · exact ⟨[forget, .arrive index (.bytes data), .arrive index (.failure .connectionReset)],
          rfl⟩
  · refine ⟨[forget, leave, .arrive index (.bytes data), .arrive index .endOfInput], ?_⟩
    rw [hangUp, Server.leave, forgetReceived, withPeer_eq_step, withPeer_eq_step]
    rfl

/-- An event in the course of a run. -/
structure Moment (τ : Type u) where
  before : Server τ
  event : Event τ

/-- The events of a run, each with the server before it. -/
def moments (s : Server τ) : List (Event τ) → List (Moment τ)
  | [] => []
  | event :: events => ⟨s, event⟩ :: (s.step sink event).moments events

lemma run_concat (s : Server τ) (events : List (Event τ)) (event : Event τ) :
    s.run sink (events ++ [event]) = (s.run sink events).step sink event :=
  List.foldl_concat ..

lemma moments_concat (s : Server τ) (events : List (Event τ)) (event : Event τ) :
    s.moments sink (events ++ [event]) =
      s.moments sink events ++ [⟨s.run sink events, event⟩] := by
  induction events generalizing s with
  | nil => rfl
  | cons first events ih =>
    rw [List.cons_append, moments, ih, moments]
    rfl

namespace Moment

/-- The connection on which something arrives, with its index and with what arrives. Nothing
arrives on a connection that has ended. -/
def arrived? (m : Moment τ) : Option (Nat × Connection τ × Arrival) :=
  match m.event with
  | .arrive index arrival => (m.before.connection? index).map fun c => (index, c, arrival)
  | _ => none

lemma arrived?_eq_some {s : Server τ} {index : Nat} {c : Connection τ}
    (hc : s.connection? index = some c) (arrival : Arrival) :
    (⟨s, .arrive index arrival⟩ : Moment τ).arrived? = some (index, c, arrival) := by
  simp only [arrived?, hc, Option.map_some]

/-- What arrives. -/
def arrivals (m : Moment τ) : List Arrival := m.arrived?.toList.map fun a => a.2.2

/-- The scene in which an open connection deals with what arrives. -/
def scene (s : Server τ) (c : Connection τ) (arrival : Arrival) : Scene τ :=
  ⟨⟨s.stores, c.identity⟩, s.ledger.received arrival.content.length, c.sink⟩

/-- The lines that are dealt with. -/
def handled (m : Moment τ) : List Handled :=
  m.arrived?.toList.flatMap fun (_, c, arrival) =>
    (scene m.before c arrival).handled sink (arrival.due c.rest)

/-- Whether something arrives on a connection. -/
def on (index : Nat) (m : Moment τ) : Bool := m.arrived?.any fun a => a.1 == index

/-- Whether a connection ends. -/
def closes (index : Nat) (m : Moment τ) : Bool :=
  (m.before.ending? index).isNone && ((m.before.step sink m.event).ending? index).isSome

end Moment

/-! ## One arrival -/

/-- **What an arrival does.**  The requests that it makes complete are dealt with.  The connection
goes on if none of them was cut short and the arrival leaves it open. -/
lemma exists_arrive {s : Server τ} {index : Nat} {c : Connection τ}
    (hc : s.connection? index = some c) (arrival : Arrival) :
    let hs := (Moment.scene s c arrival).handled sink (arrival.due c.rest)
    let ledger := (s.ledger.received arrival.content.length).entering hs
    ∃ stores next fault,
      s.arrive sink index arrival =
        ⟨stores, if next.isOpen then ledger else ledger.closed, s.connections.set index next⟩ ∧
      Dealt (arrival.due c.rest) hs fault ∧ next.rest = arrival.left c.rest ∧
      next.ending = fault.elim (arrival.ending c.rest) fun fault => some (.failed fault) := by
  intro hs ledger
  obtain ⟨-, hopen⟩ := Option.filter_eq_some_iff.1 hc
  let outcome := (Moment.scene s c arrival).answerAll sink (arrival.due c.rest)
  have hledger : outcome.2.ledger = ledger :=
    (Moment.scene s c arrival).ledger_answerAll sink (arrival.due c.rest)
  have hreceive : Scene.receive sink ⟨⟨s.stores, c.identity⟩, s.ledger, c.sink⟩ c.rest arrival =
      ⟨outcome.1.elim (arrival.ending c.rest) fun fault => some (.failed fault),
        arrival.left c.rest, outcome.2⟩ := Scene.receive_eq sink _ c.rest arrival
  let next : Connection τ := ⟨outcome.2.session.identity, arrival.left c.rest, outcome.2.sink,
    outcome.1.elim (arrival.ending c.rest) fun fault => some (.failed fault)⟩
  refine ⟨outcome.2.session.stores, next, outcome.1, ?_,
    (Moment.scene s c arrival).dealt_handled sink (arrival.due c.rest), rfl, rfl⟩
  rw [arrive, hc]
  simp only [Connection.receive, hopen, if_true, hreceive, hledger]
  have hended : (if next.isOpen then ledger else ledger.closed) =
      if next.ending.isSome then ledger.closed else ledger := by
    rw [Connection.isOpen]
    cases next.ending <;> rfl
  rw [hended]
  rfl

/-! ## Any event -/

/-- What is left on a connection, and why it ended if it has. -/
def view (s : Server τ) (index : Nat) : Option (Bytes × Option Ending) :=
  s.connections[index]?.map fun c => (c.rest, c.ending)

lemma ending?_eq_view (s : Server τ) (index : Nat) :
    s.ending? index = (s.view index).bind (·.2) := by
  rw [ending?, view]
  cases s.connections[index]? <;> rfl

/-- Nothing arrives and no connection is taken up: the ledger and what is left on the connections
stay as they are. -/
structure Quiet (s s' : Server τ) : Prop where
  ledger_eq : s'.ledger = s.ledger
  connections_eq : s'.connections.map (fun c => (c.rest, c.ending)) =
    s.connections.map fun c => (c.rest, c.ending)

lemma Quiet.refl (s : Server τ) : Quiet s s := ⟨rfl, rfl⟩

lemma Quiet.length_eq {s s' : Server τ} (h : Quiet s s') :
    s'.connections.length = s.connections.length := by
  simpa using congrArg List.length h.connections_eq

lemma Quiet.countP_eq {s s' : Server τ} (h : Quiet s s') :
    s'.connections.countP (·.isOpen) = s.connections.countP (·.isOpen) := by
  have hcount (l : List (Connection τ)) : l.countP (·.isOpen) =
      (l.map fun c => (c.rest, c.ending)).countP fun v => v.2.isNone := by
    rw [List.countP_map]
    rfl
  rw [hcount, hcount, h.connections_eq]

lemma Quiet.view_eq {s s' : Server τ} (h : Quiet s s') (index : Nat) :
    s'.view index = s.view index := by
  rw [view, view, ← List.getElem?_map, ← List.getElem?_map, h.connections_eq]

lemma quiet_alter (s : Server τ) (index : Nat) (f : τ → τ) : Quiet s (s.alter index f) := by
  rw [alter]
  cases hc : s.connection? index with
  | none => exact .refl s
  | some c =>
    obtain ⟨hget, -⟩ := Option.filter_eq_some_iff.1 hc
    have hview : (s.connections.map fun c => (c.rest, c.ending))[index]? =
        some (c.rest, c.ending) := by
      rw [List.getElem?_map, hget]
      rfl
    obtain ⟨hindex, hsame⟩ := List.getElem?_eq_some_iff.1 hview
    refine ⟨rfl, ?_⟩
    simp only [setConnection, List.map_set]
    rw [← hsame, List.set_getElem_self]

/-- **What an event can do.**  A connection is taken up, or something arrives on one that is open,
or all is quiet. -/
lemma step_cases (s : Server τ) (event : Event τ) :
    (∃ t, event = .accept t) ∨
    (∃ index c arrival, event = .arrive index arrival ∧ s.connection? index = some c) ∨
    ((⟨s, event⟩ : Moment τ).arrived? = none ∧ event.isAccept = false ∧
      Quiet s (s.step sink event)) := by
  cases event with
  | accept t => exact .inl ⟨t, rfl⟩
  | arrive index arrival =>
    cases hc : s.connection? index with
    | none =>
      have hstep : s.step sink (.arrive index arrival) = s := by rw [step, arrive, hc]
      rw [hstep]
      exact .inr (.inr ⟨by simp only [Moment.arrived?, hc, Option.map_none], rfl, .refl s⟩)
    | some c => exact .inr (.inl ⟨index, c, arrival, rfl, hc⟩)
  | alter index f => exact .inr (.inr ⟨rfl, rfl, quiet_alter s index f⟩)
  | meanwhile f => exact .inr (.inr ⟨rfl, rfl, rfl, rfl⟩)

/-! ## The counts -/

/-- The counts that the connections and the moments of a run come to. -/
def tally (s : Server τ) (ms : List (Moment τ)) : Ledger :=
  let opened : Ledger :=
    ⟨.ofNat s.connections.length, .ofNat (s.connections.countP (·.isOpen)), 0, 0, 0, 0⟩
  (opened.received ((ms.flatMap Moment.arrivals).map fun a => a.content.length).sum).entering
    (ms.flatMap (Moment.handled sink))

/-- A moment at which nothing arrives adds nothing. -/
lemma tally_concat_of_none (s : Server τ) (ms : List (Moment τ)) {m : Moment τ}
    (h : m.arrived? = none) : tally sink s (ms ++ [m]) = tally sink s ms := by
  simp [tally, Moment.arrivals, Moment.handled, h]

/-- A moment at which something arrives adds what arrives and the requests that are dealt with. -/
lemma tally_concat_of_arrival {s : Server τ} {index : Nat} {c : Connection τ}
    (hc : s.connection? index = some c) (arrival : Arrival) (s' : Server τ) (ms : List (Moment τ)) :
    tally sink s' (ms ++ [⟨s, .arrive index arrival⟩]) =
      ((tally sink s' ms).received arrival.content.length).entering
        ((Moment.scene s c arrival).handled sink (arrival.due c.rest)) := by
  simp only [tally, List.flatMap_append, List.flatMap_singleton, Moment.arrivals, Moment.handled,
    Moment.arrived?_eq_some hc, Option.toList_some, List.map_append, List.map_singleton,
    List.sum_append, List.sum_singleton, Ledger.entering_append, ← Ledger.received_received]
  rfl

/-- The open connections after one of them was replaced. -/
lemma countP_isOpen_set {s : Server τ} {index : Nat} {c : Connection τ}
    (hc : s.connection? index = some c) (next : Connection τ) :
    (s.connections.set index next).countP (·.isOpen) + (!next.isOpen).toNat =
      s.connections.countP (·.isOpen) := by
  obtain ⟨hget, hopen⟩ := Option.filter_eq_some_iff.1 hc
  obtain ⟨hindex, hgetElem⟩ := List.getElem?_eq_some_iff.1 hget
  have hpos : 0 < s.connections.countP (·.isOpen) :=
    List.countP_pos_iff.2 ⟨c, List.mem_of_getElem? hget, hopen⟩
  rw [List.countP_set hindex, hgetElem, if_pos hopen]
  cases next.isOpen
  · simp only [Bool.false_eq_true, if_false, Bool.not_false, Bool.toNat_true]
    omega
  · simp only [if_true, Bool.not_true, Bool.toNat_false]
    omega

/-- **The counts after one more event.** -/
lemma tally_step {s : Server τ} {ms : List (Moment τ)} (h : s.ledger = tally sink s ms)
    (event : Event τ) :
    (s.step sink event).ledger = tally sink (s.step sink event) (ms ++ [⟨s, event⟩]) := by
  obtain ⟨t, rfl⟩ | ⟨index, c, arrival, rfl, hc⟩ | ⟨hnone, -, hquiet⟩ := step_cases sink s event
  · have hfresh : (Connection.fresh t).isOpen = true := rfl
    rw [tally_concat_of_none sink _ _ rfl]
    show s.ledger.opened = _
    rw [h]
    simp [tally, step, accept, Ledger.opened, Ledger.entering, Ledger.received, hfresh,
      UInt64.ofNat_add]
  · obtain ⟨stores, next, fault, harrive, -, -, -⟩ := exists_arrive sink hc arrival
    have hcount := countP_isOpen_set hc next
    rw [tally_concat_of_arrival sink hc, step, harrive, h]
    cases hopen : next.isOpen
    · -- the connection ends, and one open connection less is left
      rw [hopen] at hcount
      simp only [Bool.not_false, Bool.toNat_true] at hcount
      have hactive : UInt64.ofNat (s.connections.countP (·.isOpen)) - 1 =
          .ofNat ((s.connections.set index next).countP (·.isOpen)) := by
        rw [← hcount, UInt64.ofNat_add]
        exact UInt64.add_sub_cancel _ 1
      simp only [Bool.false_eq_true, if_false, tally, List.length_set, ← hactive]
      rfl
    · rw [hopen] at hcount
      simp only [Bool.not_true, Bool.toNat_false, Nat.add_zero] at hcount
      simp only [if_true, tally, List.length_set, hcount]
  · rw [tally_concat_of_none sink _ _ hnone, hquiet.ledger_eq, h]
    rw [tally, tally, hquiet.length_eq, hquiet.countP_eq]

/-- The connections after one more event. -/
lemma length_step (s : Server τ) (event : Event τ) :
    (s.step sink event).connections.length = s.connections.length + event.isAccept.toNat := by
  obtain ⟨t, rfl⟩ | ⟨index, c, arrival, rfl, hc⟩ | ⟨-, haccept, hquiet⟩ := step_cases sink s event
  · exact List.length_append
  · obtain ⟨stores, next, fault, harrive, -, -, -⟩ := exists_arrive sink hc arrival
    rw [step, harrive, List.length_set]
    rfl
  · rw [hquiet.length_eq, haccept]
    rfl

variable (stores : Stores) (events : List (Event τ))

/-- **The counts after a run.** -/
lemma ledger_run :
    let s := (start stores).run sink events
    s.connections.length = events.countP Event.isAccept ∧
      s.ledger = tally sink s ((start stores).moments sink events) := by
  induction events using List.reverseRecOn with
  | nil => exact ⟨rfl, rfl⟩
  | append_singleton events event ih =>
    obtain ⟨hlength, hledger⟩ := ih
    rw [run_concat, moments_concat]
    refine ⟨?_, tally_step sink hledger event⟩
    rw [length_step, hlength, List.countP_append, List.countP_singleton]
    cases event.isAccept <;> rfl

/-! ## Endings -/

lemma view_accept (s : Server τ) (t : τ) (index : Nat) :
    (s.accept t).view index =
      if index = s.connections.length then some ([], none) else s.view index := by
  rw [view, accept, view]
  split_ifs with h
  · rw [h, List.getElem?_concat_length]
    rfl
  · obtain hlt | hle := Nat.lt_or_ge index s.connections.length
    · rw [List.getElem?_append_left hlt]
    · rw [List.getElem?_eq_none hle, List.getElem?_eq_none]
      rw [List.length_append, List.length_singleton]
      omega

lemma view_of_connection? {s : Server τ} {index : Nat} {c : Connection τ}
    (hc : s.connection? index = some c) : s.view index = some (c.rest, none) := by
  obtain ⟨hget, hopen⟩ := Option.filter_eq_some_iff.1 hc
  rw [view, hget, Option.map_some, Option.isNone_iff_eq_none.1 hopen]

/-- An arrival changes what is left on its connection and on no other. -/
lemma view_set {s : Server τ} {index : Nat} {c : Connection τ}
    (hc : s.connection? index = some c) (stores : Stores) (ledger : Ledger) (next : Connection τ)
    (other : Nat) :
    (⟨stores, ledger, s.connections.set index next⟩ : Server τ).view other =
      if index = other then some (next.rest, next.ending) else s.view other := by
  obtain ⟨hget, -⟩ := Option.filter_eq_some_iff.1 hc
  obtain ⟨hindex, -⟩ := List.getElem?_eq_some_iff.1 hget
  rw [view, view, List.getElem?_set]
  split_ifs <;> rfl

/-- A connection that has ended does not end again. -/
lemma ending?_step {s : Server τ} {index : Nat} {ending : Ending}
    (h : s.ending? index = some ending) (event : Event τ) :
    (s.step sink event).ending? index = some ending := by
  rw [ending?_eq_view] at h ⊢
  obtain ⟨t, rfl⟩ | ⟨other, c, arrival, rfl, hc⟩ | ⟨-, -, hquiet⟩ := step_cases sink s event
  · rw [step, view_accept, if_neg, h]
    rintro rfl
    rw [view, List.getElem?_eq_none (Nat.le_refl _)] at h
    cases h
  · obtain ⟨stores, next, fault, harrive, -, -, -⟩ := exists_arrive sink hc arrival
    rw [step, harrive, view_set hc, if_neg, h]
    rintro rfl
    rw [view_of_connection? hc] at h
    cases h
  · rw [hquiet.view_eq, h]

/-- **A connection ends at one moment at most,** and exactly if it has ended after the run. -/
lemma countP_closes_run (index : Nat) :
    ((start stores).moments sink events).countP (Moment.closes sink index) =
      (((start stores).run sink events).ending? index).isSome.toNat := by
  induction events using List.reverseRecOn with
  | nil => rfl
  | append_singleton events event ih =>
    rw [run_concat, moments_concat, List.countP_append, ih, List.countP_singleton, Moment.closes]
    cases hended : ((start stores).run sink events).ending? index with
    | none => cases (((start stores).run sink events).step sink event).ending? index <;> rfl
    | some ending =>
      rw [ending?_step sink hended event]
      rfl

/-! ## The requests of a connection -/

end Server

namespace Arrival

/-- The requests of what arrives on a connection: every line that has ended, and at the end of the
input what follows the last line feed. -/
def requestsOf (arrivals : List Arrival) : List Bytes :=
  let stream := arrivals.flatMap content
  Service.endedLines stream ++
    if endOfInput ∈ arrivals then [stream.rtakeWhile (· ≠ 0x0A)] else []

/-- The bytes that are left after arrivals without an end of the input. -/
def leftOf (arrivals : List Arrival) : Bytes := (Frames.ofBytes (arrivals.flatMap content)).rest

variable {arrivals : List Arrival} (arrival : Arrival)

lemma requestsOf_concat (h : endOfInput ∉ arrivals) :
    requestsOf (arrivals ++ [arrival]) = requestsOf arrivals ++ arrival.due (leftOf arrivals) := by
  have hstream : (arrivals ++ [arrival]).flatMap content =
      arrivals.flatMap content ++ arrival.content := by
    rw [List.flatMap_append, List.flatMap_singleton]
  simp only [requestsOf, hstream, h, if_false, List.append_nil, List.mem_append, false_or,
    List.mem_singleton, Service.endedLines_eq]
  cases arrival with
  | bytes chunk =>
    rw [if_neg nofun, List.append_nil, content, Frames.requests_append]
    rfl
  | endOfInput =>
    rw [if_pos rfl, content, List.append_nil, ← Frames.rest_eq_rtakeWhile]
    rfl
  | failure fault =>
    rw [if_neg nofun, content, List.append_nil, List.append_nil, due, List.append_nil]

lemma leftOf_concat_bytes (chunk : Bytes) :
    leftOf (arrivals ++ [bytes chunk]) = (bytes chunk).left (leftOf arrivals) := by
  rw [leftOf, List.flatMap_append, Frames.rest_append, List.flatMap_singleton]
  rfl

end Arrival

/-- What is known of a connection from what has arrived on it and which requests were dealt with. A
connection is seen as `Server.view` shows it. -/
structure Framed (view : Option (Bytes × Option Ending)) (arrivals : List Arrival)
    (hs : List Handled) : Prop where
  absent : view = none → arrivals = []
  opened : ∀ rest, view = some (rest, none) →
    .endOfInput ∉ arrivals ∧ rest = Arrival.leftOf arrivals
  dealt : ∃ fault, Dealt (Arrival.requestsOf arrivals) hs fault ∧
    ∀ f, fault = some f → view.bind (·.2) = some (.failed f)

namespace Framed

variable {arrivals : List Arrival} {hs hs' : List Handled}

lemma nil : Framed none [] [] := ⟨fun _ => rfl, nofun, none, .all, nofun⟩

/-- A connection is taken up. -/
lemma fresh (h : Framed none arrivals hs) : Framed (some ([], none)) arrivals hs := by
  obtain rfl := h.absent rfl
  obtain ⟨fault | fault, hdealt, hfault⟩ := h.dealt
  · refine ⟨nofun, ?_, none, hdealt, nofun⟩
    rintro rest ⟨⟩
    exact ⟨List.not_mem_nil, rfl⟩
  · cases hfault fault rfl

/-- Something arrives. -/
lemma arrive {rest : Bytes} (h : Framed (some (rest, none)) arrivals hs) {arrival : Arrival}
    {fault : Option Fault} (hdealt : Dealt (arrival.due rest) hs' fault) :
    Framed
      (some (arrival.left rest, fault.elim (arrival.ending rest) fun f => some (.failed f)))
      (arrivals ++ [arrival]) (hs ++ hs') := by
  obtain ⟨hinput, rfl⟩ := h.opened rest rfl
  refine ⟨nofun, ?_, fault, ?_, ?_⟩
  · intro rest' hview
    obtain ⟨rfl, hending⟩ := Prod.mk.inj (Option.some.inj hview)
    -- neither a request that was cut short nor an end of the input leaves the connection open
    obtain rfl | ⟨f, rfl⟩ := Option.eq_none_or_eq_some fault
    · cases arrival with
      | bytes chunk =>
        refine ⟨?_, (Arrival.leftOf_concat_bytes chunk).symm⟩
        simpa using hinput
      | endOfInput => cases hending
      | failure f => cases hending
    · cases hending
  · obtain ⟨before | before, hbefore, hfault⟩ := h.dealt
    · rw [Arrival.requestsOf_concat arrival hinput]
      exact hbefore.append hdealt
    · cases hfault before rfl
  · rintro f rfl
    rfl

end Framed

namespace Server

variable {τ : Type u} (sink : Sink τ)

/-- All that arrives on a connection. -/
def arrivalsOn (index : Nat) (ms : List (Moment τ)) : List Arrival :=
  (ms.filter (Moment.on index)).flatMap Moment.arrivals

/-- The lines that are dealt with on a connection. -/
def handledOn (index : Nat) (ms : List (Moment τ)) : List Handled :=
  (ms.filter (Moment.on index)).flatMap (Moment.handled sink)

/-- A moment on another connection, or on none. -/
lemma on_concat_of_off {index : Nat} (ms : List (Moment τ)) {m : Moment τ}
    (h : m.on index = false) :
    arrivalsOn index (ms ++ [m]) = arrivalsOn index ms ∧
      handledOn sink index (ms ++ [m]) = handledOn sink index ms := by
  simp [arrivalsOn, handledOn, List.filter_append, h]

/-- A moment at which something arrives on a connection. -/
lemma on_concat_of_arrival {s : Server τ} {index : Nat} {c : Connection τ}
    (hc : s.connection? index = some c) (arrival : Arrival) (ms : List (Moment τ)) :
    arrivalsOn index (ms ++ [⟨s, .arrive index arrival⟩]) = arrivalsOn index ms ++ [arrival] ∧
      handledOn sink index (ms ++ [⟨s, .arrive index arrival⟩]) =
        handledOn sink index ms ++
          (Moment.scene s c arrival).handled sink (arrival.due c.rest) := by
  simp [arrivalsOn, handledOn, List.filter_append, Moment.on, Moment.arrivals, Moment.handled,
    Moment.arrived?_eq_some hc]

/-- What is known of each connection after one more event. -/
lemma framed_step {s : Server τ} {ms : List (Moment τ)} {index : Nat}
    (h : Framed (s.view index) (arrivalsOn index ms) (handledOn sink index ms))
    (event : Event τ) :
    Framed ((s.step sink event).view index) (arrivalsOn index (ms ++ [⟨s, event⟩]))
      (handledOn sink index (ms ++ [⟨s, event⟩])) := by
  obtain ⟨t, rfl⟩ | ⟨other, c, arrival, rfl, hc⟩ | ⟨hnone, -, hquiet⟩ := step_cases sink s event
  · have hoff : (⟨s, .accept t⟩ : Moment τ).on index = false := rfl
    obtain ⟨harrivals, hhandled⟩ := on_concat_of_off sink ms hoff
    rw [harrivals, hhandled, step, view_accept]
    split_ifs with hindex
    · rw [hindex, view, List.getElem?_eq_none (Nat.le_refl _)] at h
      exact hindex ▸ h.fresh
    · exact h
  · obtain ⟨stores, next, fault, harrive, hdealt, hrest, hending⟩ := exists_arrive sink hc arrival
    rw [step, harrive, view_set hc, hrest, hending]
    split_ifs with hindex
    · subst hindex
      obtain ⟨harrivals, hhandled⟩ := on_concat_of_arrival sink hc arrival ms
      rw [view_of_connection? hc] at h
      rw [harrivals, hhandled]
      exact h.arrive hdealt
    · have hoff : (⟨s, .arrive other arrival⟩ : Moment τ).on index = false := by
        simpa [Moment.on, Moment.arrived?_eq_some hc] using hindex
      obtain ⟨harrivals, hhandled⟩ := on_concat_of_off sink ms hoff
      rw [harrivals, hhandled]
      exact h
  · have hoff : (⟨s, event⟩ : Moment τ).on index = false := by
      rw [Moment.on, hnone, Option.any_none]
    obtain ⟨harrivals, hhandled⟩ := on_concat_of_off sink ms hoff
    rw [harrivals, hhandled, hquiet.view_eq]
    exact h

/-- **What is known of each connection after a run.** -/
lemma framed_run (stores : Stores) (events : List (Event τ)) (index : Nat) :
    let ms := (start stores).moments sink events
    Framed (((start stores).run sink events).view index) (arrivalsOn index ms)
      (handledOn sink index ms) := by
  induction events using List.reverseRecOn with
  | nil => exact .nil
  | append_singleton events event ih =>
    rw [run_concat, moments_concat]
    exact framed_step sink ih event

/-- **The ledger is exact.**  Take any run: connections are taken up, bytes, ends of inputs and
failures arrive on them in any order, and meanwhile anything happens to the clients and to the
stores.  After it, as 64-bit counts,

* `accepted` is the number of connections that were taken up;
* `active` is the number of those that are still open, so that it stands for that number as long as
  fewer than 2^64 connections were taken up, and never goes below zero;
* `read` is the number of all bytes that arrived on open connections;
* `requests`, `statements` and `written` are the number of the requests that were answered in full,
  of their statements, and of the bytes of the lines that answer them.

Each connection ended at exactly one moment, or at none if it is still open.  The requests that were
dealt with on it, in order, are its ended lines and at the end of the input what followed the last
line feed, either all of them or those up to the one whose answer was cut short by a fault; that
fault is then why the connection ended. -/
theorem ledger_exact (stores : Stores) (events : List (Event τ)) :
    let s := (start stores).run sink events
    let ms := (start stores).moments sink events
    let finished := (ms.flatMap (Moment.handled sink)).filter Handled.finished
    let isOpen (c : Connection τ) := c.ending.isNone
    s.connections.length = events.countP Event.isAccept ∧
    s.ledger =
      { accepted := .ofNat (events.countP Event.isAccept)
        active := .ofNat (s.connections.countP isOpen)
        requests := .ofNat finished.length
        statements := .ofNat (finished.map (·.statements.length)).sum
        read := .ofNat ((ms.flatMap Moment.arrivals).map (·.content.length)).sum
        written := .ofNat (finished.map (·.answer.flatten.length)).sum } ∧
    (events.countP Event.isAccept < 2 ^ 64 →
      s.ledger.active.toNat = s.connections.countP isOpen) ∧
    ∀ index,
      ms.countP (Moment.closes sink index) = (s.ending? index).isSome.toNat ∧
      ∃ fault, Dealt (Arrival.requestsOf (arrivalsOn index ms)) (handledOn sink index ms) fault ∧
        ∀ f, fault = some f → s.ending? index = some (.failed f) := by
  intro s ms finished isOpen
  obtain ⟨hlength, hledger⟩ := ledger_run sink stores events
  have hexact : s.ledger =
      { accepted := .ofNat (events.countP Event.isAccept)
        active := .ofNat (s.connections.countP isOpen)
        requests := .ofNat finished.length
        statements := .ofNat (finished.map (·.statements.length)).sum
        read := .ofNat ((ms.flatMap Moment.arrivals).map (·.content.length)).sum
        written := .ofNat (finished.map (·.answer.flatten.length)).sum } := by
    rw [hledger, tally, hlength]
    simp only [Ledger.entering, Ledger.received, UInt64.zero_add]
    rfl
  refine ⟨hlength, hexact, fun hbound => ?_, fun index => ?_⟩
  · have hopen : s.connections.countP isOpen ≤ s.connections.length := List.countP_le_length
    rw [hexact]
    exact UInt64.toNat_ofNat_of_lt' (by rw [hlength] at hopen; exact hopen.trans_lt hbound)
  · obtain ⟨fault, hdealt, hfault⟩ := (framed_run sink stores events index).dealt
    refine ⟨countP_closes_run sink stores events index, fault, hdealt, fun f hf => ?_⟩
    rw [ending?_eq_view]
    exact hfault f hf

/-- Two connections; the client of the second is gone before its second request is answered. -/
example :
    ((start (.empty .mixing .never .never .zero)).run Peer.sink
      [.accept .fresh, .accept .fresh, .arrive 1 (.bytes (Utf8.encode "SET k v\n")),
        .alter 1 fun p => { p with present := false }, .arrive 1 (.bytes (Utf8.encode "GET k\n")),
        .arrive 0 .endOfInput]).ledger = ⟨2, 0, 1, 1, 14, 8⟩ := by
  decide +kernel

end Server

end ExpiringStore
