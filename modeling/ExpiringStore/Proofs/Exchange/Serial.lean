import ExpiringStore.Proofs.Exchange.Basic
import ExpiringStore.Proofs.Response.Text
import ExpiringStore.Proofs.Session.Statements

/-!
# Reads answer with the last write

Whatever the interleaving, the statements that have run form one list, and a `GET` can be answered
from this list alone: `lastOn` looks for the most recent statement that wrote or removed the key, in
whichever session it ran, and `shown` is the value it wrote, unless its lifetime is over.

The invariant `Serial` compares the store with the list: from now on every read will answer with
what is shown.  It cannot compare entries, because a read or a sweep may or may not have removed one
that has expired.  One event keeps the invariant (`Serial.step`), and hence a run does; a `GET` that
runs under the invariant is answered with what is shown.
-/

namespace ExpiringStore

/-- Whether the statement writes or removes the key. -/
def Statement.touches (key : String) : Statement → Bool
  | .set written _ _ => written = key
  | .delete keys => key ∈ keys
  | .get _ => false
  | .auth .. => false

/-- The most recent statement that wrote or removed the key, and when it ran. -/
def lastOn (log : List Record) (key : String) : Option (Instant × Statement) :=
  log.findSome? fun r =>
    match r.deed with
    | .ran statement _ => if statement.touches key then some (r.time, statement) else none
    | _ => none

/-- The value of a key at `now`, as far as the log tells: the value that was written last, until
its lifetime is over. -/
def shown (expiry : Expiry) (log : List Record) (now : Instant) (key : String) : Option String :=
  match lastOn log key with
  | some (time, .set _ value ttl) =>
    if ((ttl.map .after).getD expiry).Reached time now then none else some value
  | _ => none

lemma shown_cons_ran (expiry : Expiry) (log : List Record) (client : Nat) (time now : Instant)
    (statement : Statement) (line : Bytes) (key : String) :
    shown expiry (⟨client, time, .ran statement line⟩ :: log) now key =
      statement.leaves expiry time now key (shown expiry log now key) := by
  cases statement with
  | set written value ttl =>
    by_cases hkey : written = key
    · simp [shown, lastOn, Statement.touches, Statement.leaves, hkey]
    · simp [shown, lastOn, Statement.touches, Statement.leaves, hkey]
  | delete keys =>
    by_cases hkey : key ∈ keys
    · simp [shown, lastOn, Statement.touches, Statement.leaves, hkey]
    · simp [shown, lastOn, Statement.touches, Statement.leaves, hkey]
  | get keys => simp [shown, lastOn, Statement.touches, Statement.leaves]
  | auth username password => simp [shown, lastOn, Statement.touches, Statement.leaves]

/-- What was sent besides the answers of statements does not count. -/
lemma shown_cons_of_ne_ran (expiry : Expiry) (log : List Record) {r : Record}
    (h : ∀ statement line, r.deed ≠ .ran statement line) (now : Instant) (key : String) :
    shown expiry (r :: log) now key = shown expiry log now key := by
  obtain ⟨client, time, deed⟩ := r
  cases deed with
  | refused line => rfl
  | ran statement line => exact absurd rfl (h statement line)
  | returned executed => rfl

namespace Exchange

/-- Every `GET` in the log was answered with what was shown when it ran. -/
def Answered (expiry : Expiry) (log : List Record) : Prop :=
  ∀ later r earlier keys line, log = later ++ r :: earlier → r.deed = .ran (.get keys) line →
    line = Utf8.encode (Response.listing (keys.map (shown expiry earlier r.time)))

lemma Answered.cons {expiry : Expiry} {log : List Record} {r : Record} (h : Answered expiry log)
    (hr : ∀ keys line, r.deed = .ran (.get keys) line →
      line = Utf8.encode (Response.listing (keys.map (shown expiry log r.time)))) :
    Answered expiry (r :: log) := by
  intro later s earlier keys line hlog hget
  cases later with
  | nil =>
    obtain ⟨rfl, rfl⟩ := List.cons_eq_cons.1 hlog
    exact hr keys line hget
  | cons first later =>
    obtain ⟨rfl, rfl⟩ := List.cons_eq_cons.1 hlog
    exact h later s earlier keys line rfl hget

/-- From now on every read answers with what the log shows, and so did every read so far. -/
structure Serial (expiry : Expiry) (x : Exchange) : Prop where
  expiry_eq : x.hub.stores.data.defaultExpiry = expiry
  visible_eq : ∀ t, x.hub.stores.now ≤ t → ∀ key,
    x.hub.stores.data.visible t (Utf8.encode key) = (shown expiry x.log t key).map Utf8.encode
  answered : Answered expiry x.log

variable {expiry : Expiry} {x y : Exchange}

/-- The invariant looks at the stores and the log only. -/
lemma Serial.congr (h : Serial expiry x) (hstores : y.hub.stores = x.hub.stores)
    (hlog : y.log = x.log) : Serial expiry y := by
  refine ⟨?_, ?_, ?_⟩
  · rw [hstores]
    exact h.expiry_eq
  · rw [hstores, hlog]
    exact h.visible_eq
  · rw [hlog]
    exact h.answered

/-- Time may pass, and what no read will answer with any more may go. -/
lemma Serial.of_visible (h : Serial expiry x) (hlog : y.log = x.log)
    (hnow : x.hub.stores.now ≤ y.hub.stores.now)
    (hexpiry : y.hub.stores.data.defaultExpiry = x.hub.stores.data.defaultExpiry)
    (hvisible : ∀ t, x.hub.stores.now ≤ t → ∀ key,
      y.hub.stores.data.visible t key = x.hub.stores.data.visible t key) : Serial expiry y := by
  refine ⟨hexpiry.trans h.expiry_eq, ?_, ?_⟩
  · intro t ht key
    have hfrom : x.hub.stores.now ≤ t := Instant.le_trans hnow ht
    rw [hvisible t hfrom, h.visible_eq t hfrom, hlog]
  · rw [hlog]
    exact h.answered

/-- A deed that is not a statement leaves the invariant alone. -/
lemma Serial.record (h : Serial expiry x) (index : Nat) {deed : Deed}
    (hdeed : ∀ statement line, deed ≠ .ran statement line) :
    Serial expiry (x.record index deed) := by
  refine ⟨h.expiry_eq, ?_, h.answered.cons ?_⟩
  · intro t ht key
    rw [Exchange.record, shown_cons_of_ne_ran _ _ hdeed]
    exact h.visible_eq t ht key
  · intro keys line hget
    exact absurd hget (hdeed _ _)

/-- A `GET` lists what the log shows. -/
lemma Serial.execute_get (h : Serial expiry x) {s : Session} (hs : s.stores = x.hub.stores)
    (keys : List String) :
    (Session.database.execute s (.get keys)).1.line =
      Utf8.encode (Response.listing (keys.map (shown expiry x.log x.hub.stores.now))) := by
  have hread : (keys.map fun key => s.stores.data.visible s.stores.now (Utf8.encode key)) =
      (keys.map (shown expiry x.log x.hub.stores.now)).map fun slot => slot.map Utf8.encode := by
    rw [List.map_map, hs]
    exact List.map_congr_left fun key _ => h.visible_eq _ Instant.le_rfl key
  rw [Session.execute_get, hread, Response.line_values]

/-- **One statement keeps the invariant.** -/
lemma Serial.step_proceed (h : Serial expiry x) {index : Nat} {s : Session} {size : Nat}
    {statement : Statement} {left : List Statement} (hs : x.hub.session? index = some s)
    (htask : x.tasks index = some ⟨size, statement :: left⟩) :
    Serial expiry (x.step (.proceed index)) := by
  have hstores := Hub.stores_of_session? hs
  rw [Exchange.step_proceed hs htask]
  have hexpiry : s.stores.data.defaultExpiry = expiry := by rw [hstores, h.expiry_eq]
  refine ⟨?_, ?_, h.answered.cons ?_⟩
  · exact (Session.defaultExpiry_execute s statement).trans hexpiry
  · intro t ht key
    have hfrom : x.hub.stores.now ≤ t := by
      rw [← hstores, ← Session.now_execute s statement]
      exact ht
    have hbefore := h.visible_eq t hfrom key
    rw [← hstores] at hfrom hbefore
    rw [shown_cons_ran, ← hexpiry, ← hstores]
    rw [← hexpiry] at hbefore
    exact Session.visible_execute s statement hfrom key hbefore
  · intro keys line hget
    cases hget
    exact h.execute_get hstores keys

lemma Serial.proceed (h : Serial expiry x) (index : Nat) :
    Serial expiry (x.step (.proceed index)) := by
  cases htask : x.tasks index with
  | none => simpa [Exchange.step, Exchange.proceed, htask] using h
  | some task =>
    obtain ⟨size, left⟩ := task
    cases left with
    | nil =>
      rw [step_proceed_returned size htask]
      exact (h.record index (by simp)).congr rfl rfl
    | cons statement left =>
      cases hs : x.hub.session? index with
      | none => rwa [step_proceed_absent hs htask]
      | some s => exact h.step_proceed hs htask

lemma Serial.submit (h : Serial expiry x) (index : Nat) (text : String) :
    Serial expiry (x.submit index text) := by
  unfold Exchange.submit
  split
  · exact h
  · split
    · exact (h.record index (by simp)).congr rfl rfl
    · exact h.congr rfl rfl

/-- **One event keeps the invariant.** -/
lemma Serial.step (h : Serial expiry x) (event : Event) : Serial expiry (x.step event) := by
  cases event with
  | join => exact h.congr rfl rfl
  | leave index =>
    refine h.congr ?_ rfl
    simp only [Exchange.step, setTask, aside, Hub.step, Hub.leave]
    split <;> rfl
  | register username password =>
    exact h.of_visible rfl Instant.le_rfl rfl fun t ht key => rfl
  | unregister username =>
    exact h.of_visible rfl Instant.le_rfl rfl fun t ht key => rfl
  | elapse d =>
    exact h.of_visible rfl (Instant.le_later _ d) rfl fun t ht key => rfl
  | sweep =>
    refine h.of_visible rfl Instant.le_rfl rfl ?_
    intro t ht key
    exact Store.visible_removeExpired _ ht key
  | submit index text => exact h.submit index text
  | proceed index => exact h.proceed index
  | abandon index => exact h.congr rfl rfl

lemma Serial.run (h : Serial expiry x) (events : List Event) : Serial expiry (x.run events) := by
  induction events generalizing x with
  | nil => exact h
  | cons event events ih => exact ih (h.step event)

lemma serial_start (placement : Placement) (expiry : Expiry) (users : Store Account) (now : Instant)
    (seats : List Seat) :
    Serial expiry (start ⟨⟨.empty placement expiry, users, now⟩, seats⟩) := by
  refine ⟨rfl, ?_, ?_⟩
  · intro t _ key
    exact Store.visible_of_find?_eq_none (Store.find?_empty placement expiry _) t
  · intro later r earlier keys line hlog
    simp [start] at hlog

/-- **Serial semantics.**  Sessions send requests over a store of data that is empty at first, and
their statements run in any interleaving, with time passing, accounts changing and sweeps between
them.  Then every `GET` is answered by the list of what is shown for its keys: the value of the most
recent `SET` of the key in any session, if no `DEL` of the key has run since and the lifetime given
with it, or else the default one, is not over. -/
theorem get_answers_last_write (placement : Placement) (expiry : Expiry) (users : Store Account)
    (now : Instant) (seats : List Seat) (events : List Event) {later earlier : List Record}
    {r : Record} {keys : List String} {line : Bytes}
    (hlog : ((start ⟨⟨.empty placement expiry, users, now⟩, seats⟩).run events).log =
      later ++ r :: earlier)
    (hget : r.deed = .ran (.get keys) line) :
    line = Utf8.encode (Response.listing (keys.map (shown expiry earlier r.time))) :=
  ((serial_start placement expiry users now seats).run events).answered later r earlier keys line
    hlog hget

/-- A value with a short lifetime is replaced by one without, between the two `GET`s of another
session; after the short lifetime the second `GET` still finds the new value. -/
theorem get_after_overwrite :
    let expiry : Expiry := .after (.ofSeconds 300)
    let x := (start ⟨⟨.empty .mixing expiry, .empty .mixing .never, .zero⟩,
      [.taken none, .taken none]⟩).run
        [.submit 0 "SET k v 60000; SET k \"é\"", .submit 1 "GET k; GET k j", .proceed 0, .proceed 1,
          .proceed 0, .elapse (.ofSeconds 120), .sweep, .proceed 1]
    ∃ r earlier, x.log = [] ++ r :: earlier ∧
      r.deed = .ran (.get ["k", "j"]) (Utf8.encode "[\"é\", (nil)]\n") ∧
      Response.listing (["k", "j"].map (shown expiry earlier r.time)) = "[\"é\", (nil)]\n" := by
  intro expiry x
  have hhead : x.log.head?.map (·.deed) =
      some (.ran (.get ["k", "j"]) (Utf8.encode "[\"é\", (nil)]\n")) := by
    decide +kernel
  cases hlog : x.log with
  | nil => simp [hlog] at hhead
  | cons r earlier =>
    rw [hlog] at hhead
    have hget := Option.some.inj hhead
    have hsplit : x.log = [] ++ r :: earlier := hlog
    refine ⟨r, earlier, rfl, hget, Utf8.encode_injective ?_⟩
    exact (get_answers_last_write _ _ _ _ _ _ hsplit hget).symm

end Exchange

end ExpiringStore
