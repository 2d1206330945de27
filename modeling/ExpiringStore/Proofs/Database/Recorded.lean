import ExpiringStore.Database.Recorded
import Mathlib.Tactic.Lemma

/-!
# What a record tells about a database

Writing calls down changes nothing else: a statement over the recording database answers and leaves
behind what it would over the database itself, and the calls it makes are put in front of those that
were written down before.  `Records` says this of two computations.  It holds of reads and removals
of several keys, which end at the first refusal in both databases alike, and hence of statements.

So the calls of a statement can be told from the state it is run in; `Database.callsOf` has them in
the order in which they were made.
-/

namespace ExpiringStore

variable {σ : Type u} {α : Type v}

/-- The recording computation does what the plain one does, and puts the calls it makes in front of
the record. -/
def Records (recording : Recorded σ → α × Recorded σ) (plain : σ → α × σ) : Prop :=
  ∀ s, ∃ made, ∀ calls, recording ⟨s, calls⟩ = ((plain s).1, ⟨(plain s).2, made ++ calls⟩)

/-- What is put in front of a record can be read off an empty one. -/
lemma Records.apply_eq {recording : Recorded σ → α × Recorded σ} {plain : σ → α × σ}
    (h : Records recording plain) (r : Recorded σ) :
    recording r =
      ((plain r.state).1, ⟨(plain r.state).2, (recording ⟨r.state, []⟩).2.calls ++ r.calls⟩) := by
  obtain ⟨made, hmade⟩ := h r.state
  rw [hmade [], List.append_nil]
  exact hmade r.calls

namespace Database

variable (db : Database σ)

lemma records_getAll (found : List (Option Bytes)) (keys : List String) :
    Records (db.recorded.getAll · found keys) (db.getAll · found keys) := by
  induction keys generalizing found with
  | nil => exact fun _ => ⟨[], fun _ => rfl⟩
  | cons key keys ih =>
    intro s
    have hget (calls : List Call) : db.recorded.get ⟨s, calls⟩ key =
        ((db.get s key).1, ⟨(db.get s key).2, .get key :: calls⟩) := rfl
    rcases hs : db.get s key with ⟨denied | value, s'⟩
    · exact ⟨[.get key], fun calls => by simp [getAll, hget, hs]⟩
    · obtain ⟨made, hmade⟩ := ih (value :: found) s'
      refine ⟨made ++ [.get key], fun calls => ?_⟩
      simp only [getAll, hget, hs, hmade, List.append_assoc, List.singleton_append]

lemma records_deleteAll (keys : List String) :
    Records (db.recorded.deleteAll · keys) (db.deleteAll · keys) := by
  induction keys with
  | nil => exact fun _ => ⟨[], fun _ => rfl⟩
  | cons key keys ih =>
    intro s
    have hdelete (calls : List Call) : db.recorded.delete ⟨s, calls⟩ key =
        ((db.delete s key).1, ⟨(db.delete s key).2, .delete key :: calls⟩) := rfl
    rcases hs : db.delete s key with ⟨denied | removed, s'⟩
    · exact ⟨[.delete key], fun calls => by simp [deleteAll, hdelete, hs]⟩
    · obtain ⟨made, hmade⟩ := ih s'
      refine ⟨made ++ [.delete key], fun calls => ?_⟩
      simp only [deleteAll, hdelete, hs, hmade, List.append_assoc, List.singleton_append]

lemma records_execute (statement : Statement) :
    Records (db.recorded.execute · statement) (db.execute · statement) := by
  intro s
  cases statement with
  | set key value ttl => exact ⟨[.set key (Utf8.encode value) ttl], fun _ => rfl⟩
  | get keys =>
    obtain ⟨made, hmade⟩ := db.records_getAll [] keys s
    exact ⟨made, fun calls => by simp only [execute, hmade]⟩
  | delete keys =>
    obtain ⟨made, hmade⟩ := db.records_deleteAll keys s
    exact ⟨made, fun calls => by simp only [execute, hmade]⟩
  | auth username password => exact ⟨[.authenticate username password], fun _ => rfl⟩

/-- The calls that a statement makes, the first one first. -/
def callsOf (db : Database σ) (s : σ) (statement : Statement) : List Call :=
  (db.recorded.execute ⟨s, []⟩ statement).2.calls.reverse

/-- The calls that statements make when each is run in the state that the one before it has left. -/
def callsOfAll (db : Database σ) (s : σ) : List Statement → List Call
  | [] => []
  | statement :: rest => db.callsOf s statement ++ db.callsOfAll (db.execute s statement).2 rest

/-- **A statement over the recording database.** -/
theorem recorded_execute (r : Recorded σ) (statement : Statement) :
    db.recorded.execute r statement =
      ((db.execute r.state statement).1,
        ⟨(db.execute r.state statement).2,
          (db.callsOf r.state statement).reverse ++ r.calls⟩) := by
  rw [callsOf, List.reverse_reverse]
  exact (db.records_execute statement).apply_eq r

lemma recorded_executeAll (r : Recorded σ) (statements : List Statement) :
    db.recorded.executeAll r statements =
      ((db.executeAll r.state statements).1,
        ⟨(db.executeAll r.state statements).2,
          (db.callsOfAll r.state statements).reverse ++ r.calls⟩) := by
  induction statements generalizing r with
  | nil => rfl
  | cons statement rest ih =>
    simp only [executeAll, recorded_execute, ih, callsOfAll, List.reverse_append,
      List.append_assoc]

end Database

end ExpiringStore
