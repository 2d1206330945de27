import ExpiringStore.Database.Guarded
import ExpiringStore.Proofs.Database.Recorded

/-!
# Statements behind a guard

A guard grants or refuses each key of a statement by itself.  The keys of a `GET` or a `DEL` are
asked for in order, and the first one that is refused is the last one asked for, so what a statement
asks of the database can be told from the guard and the statement alone (`Guard.callsFor`).

Nothing is assumed about what the database does with a refused key, for it never sees one.  Of the
others it is assumed that they are served (`Database.Serves`), and that where one is removed nothing
else is.  A statement of which nothing is refused is then run as if there were no guard.  One of
which something is refused is answered by the refusal alone: the values of the keys before it are
dropped, but what was removed before it stays removed.  `Contained` says all this of one statement
in one state.

That the guard stands in front of the database is no restriction: a database that refuses keys by
itself is not changed by a guard that refuses the same ones (`Database.guarded_eq_self`).
-/

namespace ExpiringStore

/-! ## What is asked for -/

namespace Guard

variable (refuses : Guard) (operation : Operation)

/-- The keys before the first one that is refused. -/
def granted (keys : List String) : List String := keys.takeWhile fun key => !refuses operation key

/-- The keys up to the first one that is refused, and that one as well. -/
def asked (keys : List String) : List String :=
  refuses.granted operation keys ++ (keys.find? (refuses operation)).toList

/-- The calls of the database that a statement makes. -/
def callsFor : Statement → List Call
  | .set key value ttl => [.set key (Utf8.encode value) ttl]
  | .get keys => (refuses.asked .read keys).map .get
  | .delete keys => (refuses.asked .delete keys).map .delete
  | .auth username password => [.authenticate username password]

/-- The operation that is refused to a statement, if one is. -/
def refusal? : Statement → Option Operation
  | .set key _ _ => if refuses .write key then some .write else none
  | .get keys => if keys.any (refuses .read) then some .read else none
  | .delete keys => if keys.any (refuses .delete) then some .delete else none
  | .auth _ _ => none

variable {refuses operation} {key : String}

lemma granted_cons_of_refused (h : refuses operation key = true) (keys : List String) :
    refuses.granted operation (key :: keys) = [] := by
  simp [granted, h]

lemma granted_cons_of_granted (h : refuses operation key = false) (keys : List String) :
    refuses.granted operation (key :: keys) = key :: refuses.granted operation keys := by
  simp [granted, h]

lemma asked_cons_of_refused (h : refuses operation key = true) (keys : List String) :
    refuses.asked operation (key :: keys) = [key] := by
  simp [asked, granted_cons_of_refused, h]

lemma asked_cons_of_granted (h : refuses operation key = false) (keys : List String) :
    refuses.asked operation (key :: keys) = key :: refuses.asked operation keys := by
  simp [asked, granted_cons_of_granted, h]

end Guard

/-- The words of a refusal, as they stand in an answer. -/
lemma AccessDenied.line_message (denied : AccessDenied) :
    (Response.error denied.message).line =
      Utf8.encode ("ERROR: access denied: " ++ denied.operation.word ++ " not permitted\n") := by
  obtain ⟨_ | _ | _⟩ := denied <;> decide +kernel

namespace Database

variable {σ : Type u} {β : Type v} {db : Database σ} {refuses : Guard}
  {held : σ → String → Option β}

/-- A database that refuses these keys by itself is the same behind the guard. -/
theorem guarded_eq_self
    (hset : ∀ s key value ttl, refuses .write key = true →
      db.set s key value ttl = (.error ⟨.write⟩, s))
    (hget : ∀ s key, refuses .read key = true → db.get s key = (.error ⟨.read⟩, s))
    (hdelete : ∀ s key, refuses .delete key = true → db.delete s key = (.error ⟨.delete⟩, s)) :
    db.guarded refuses = db := by
  obtain ⟨set, get, delete, authenticate⟩ := db
  simp only [guarded, mk.injEq, and_true]
  refine ⟨?_, ?_, ?_⟩
  · funext s key value ttl
    split
    · exact (hset s key value ttl ‹_›).symm
    · rfl
  · funext s key
    split
    · exact (hget s key ‹_›).symm
    · rfl
  · funext s key
    split
    · exact (hdelete s key ‹_›).symm
    · rfl

/-- What is not refused is served: values are stored, keys are read and removed, and of what is
`held` a removal takes its own key and nothing else. -/
structure Serves (db : Database σ) (refuses : Guard) (held : σ → String → Option β) : Prop where
  set : ∀ s key value ttl, refuses .write key = false → (db.set s key value ttl).1 = .ok ()
  get : ∀ s key, refuses .read key = false → ∃ value, (db.get s key).1 = .ok value
  delete : ∀ s key, refuses .delete key = false → ∃ removed, (db.delete s key).1 = .ok removed
  held_delete : ∀ s key other, refuses .delete key = false →
    held (db.delete s key).2 other = if other = key then none else held s other

/-! ## One key -/

section OneKey

variable {key : String}

lemma guarded_set_of_refused (h : refuses .write key = true) (s : σ) (value : Bytes)
    (ttl : Option Duration) :
    (db.guarded refuses).set s key value ttl = (.error ⟨.write⟩, s) :=
  if_pos h

lemma guarded_set_of_granted (h : refuses .write key = false) (s : σ) (value : Bytes)
    (ttl : Option Duration) :
    (db.guarded refuses).set s key value ttl = db.set s key value ttl :=
  if_neg (Bool.eq_false_iff.1 h)

lemma guarded_get_of_refused (h : refuses .read key = true) (s : σ) :
    (db.guarded refuses).get s key = (.error ⟨.read⟩, s) :=
  if_pos h

lemma guarded_get_of_granted (h : refuses .read key = false) (s : σ) :
    (db.guarded refuses).get s key = db.get s key :=
  if_neg (Bool.eq_false_iff.1 h)

lemma guarded_delete_of_refused (h : refuses .delete key = true) (s : σ) :
    (db.guarded refuses).delete s key = (.error ⟨.delete⟩, s) :=
  if_pos h

lemma guarded_delete_of_granted (h : refuses .delete key = false) (s : σ) :
    (db.guarded refuses).delete s key = db.delete s key :=
  if_neg (Bool.eq_false_iff.1 h)

end OneKey

/-! ## Several keys -/

section SeveralKeys

variable {keys : List String}

lemma getAll_guarded_of_granted (hkeys : keys.any (refuses .read) = false) (s : σ)
    (found : List (Option Bytes)) :
    (db.guarded refuses).getAll s found keys = db.getAll s found keys := by
  induction keys generalizing s found with
  | nil => rfl
  | cons key keys ih =>
    obtain ⟨hkey, hkeys⟩ := Bool.or_eq_false_iff.1 hkeys
    rw [getAll, getAll, guarded_get_of_granted hkey]
    split
    · rfl
    · exact ih hkeys _ _

lemma deleteAll_guarded_of_granted (hkeys : keys.any (refuses .delete) = false) (s : σ) :
    (db.guarded refuses).deleteAll s keys = db.deleteAll s keys := by
  induction keys generalizing s with
  | nil => rfl
  | cons key keys ih =>
    obtain ⟨hkey, hkeys⟩ := Bool.or_eq_false_iff.1 hkeys
    rw [deleteAll, deleteAll, guarded_delete_of_granted hkey]
    split
    · rfl
    · exact ih hkeys _

namespace Serves

variable (h : db.Serves refuses held)

include h

lemma get_eq {key : String} (hkey : refuses .read key = false) (s : σ) :
    ∃ value, db.get s key = (.ok value, (db.get s key).2) := by
  obtain ⟨value, hvalue⟩ := h.get s key hkey
  exact ⟨value, Prod.ext hvalue rfl⟩

lemma delete_eq {key : String} (hkey : refuses .delete key = false) (s : σ) :
    ∃ removed, db.delete s key = (.ok removed, (db.delete s key).2) := by
  obtain ⟨removed, hremoved⟩ := h.delete s key hkey
  exact ⟨removed, Prod.ext hremoved rfl⟩

/-- What is found before a refusal is dropped. -/
lemma getAll_outcome (s : σ) (found : List (Option Bytes)) (keys : List String) :
    if keys.any (refuses .read) then
      ((db.guarded refuses).getAll s found keys).1 = .error ⟨.read⟩
    else ∃ values, ((db.guarded refuses).getAll s found keys).1 = .ok values := by
  induction keys generalizing s found with
  | nil => exact ⟨found.reverse, rfl⟩
  | cons key keys ih =>
    cases hkey : refuses .read key with
    | true => simp [getAll, guarded_get_of_refused hkey, hkey]
    | false =>
      obtain ⟨value, hvalue⟩ := h.get_eq hkey s
      simp only [getAll, guarded_get_of_granted hkey, List.any_cons, hkey, Bool.false_or]
      rw [hvalue]
      exact ih _ _

lemma deleteAll_outcome (s : σ) (keys : List String) :
    ((db.guarded refuses).deleteAll s keys).1 =
      if keys.any (refuses .delete) then .error ⟨.delete⟩ else .ok () := by
  induction keys generalizing s with
  | nil => rfl
  | cons key keys ih =>
    cases hkey : refuses .delete key with
    | true => simp [deleteAll, guarded_delete_of_refused hkey, hkey]
    | false =>
      obtain ⟨removed, hremoved⟩ := h.delete_eq hkey s
      simp only [deleteAll, guarded_delete_of_granted hkey, List.any_cons, hkey, Bool.false_or]
      rw [hremoved]
      exact ih _

/-- What is removed before a refusal stays removed, and nothing else is. -/
lemma held_deleteAll (s : σ) (keys : List String) (other : String) :
    held ((db.guarded refuses).deleteAll s keys).2 other =
      if other ∈ refuses.granted .delete keys then none else held s other := by
  induction keys generalizing s with
  | nil => rfl
  | cons key keys ih =>
    cases hkey : refuses .delete key with
    | true =>
      simp [deleteAll, guarded_delete_of_refused hkey, Guard.granted_cons_of_refused hkey]
    | false =>
      obtain ⟨removed, hremoved⟩ := h.delete_eq hkey s
      simp only [deleteAll, guarded_delete_of_granted hkey, Guard.granted_cons_of_granted hkey,
        List.mem_cons]
      rw [hremoved]
      -- A key may stand there twice, so it may be gone before the rest removes it again.
      rw [ih, h.held_delete s key other hkey]
      by_cases hother : other = key
      · rw [if_pos hother, ite_self, if_pos (Or.inl hother)]
      · simp only [hother, if_false, false_or]

lemma calls_getAll (r : Recorded σ) (found : List (Option Bytes)) (keys : List String) :
    ((db.guarded refuses).recorded.getAll r found keys).2.calls =
      ((refuses.asked .read keys).map .get).reverse ++ r.calls := by
  induction keys generalizing r found with
  | nil => rfl
  | cons key keys ih =>
    have hget : (db.guarded refuses).recorded.get r key =
        (((db.guarded refuses).get r.state key).1,
          ⟨((db.guarded refuses).get r.state key).2, .get key :: r.calls⟩) := rfl
    cases hkey : refuses .read key with
    | true =>
      simp [getAll, hget, guarded_get_of_refused hkey, Guard.asked_cons_of_refused hkey]
    | false =>
      obtain ⟨value, hvalue⟩ := h.get r.state key hkey
      simp [getAll, hget, guarded_get_of_granted hkey, hvalue, ih,
        Guard.asked_cons_of_granted hkey]

lemma calls_deleteAll (r : Recorded σ) (keys : List String) :
    ((db.guarded refuses).recorded.deleteAll r keys).2.calls =
      ((refuses.asked .delete keys).map .delete).reverse ++ r.calls := by
  induction keys generalizing r with
  | nil => rfl
  | cons key keys ih =>
    have hdelete : (db.guarded refuses).recorded.delete r key =
        (((db.guarded refuses).delete r.state key).1,
          ⟨((db.guarded refuses).delete r.state key).2, .delete key :: r.calls⟩) := rfl
    cases hkey : refuses .delete key with
    | true =>
      simp [deleteAll, hdelete, guarded_delete_of_refused hkey, Guard.asked_cons_of_refused hkey]
    | false =>
      obtain ⟨removed, hremoved⟩ := h.delete r.state key hkey
      simp [deleteAll, hdelete, guarded_delete_of_granted hkey, hremoved, ih,
        Guard.asked_cons_of_granted hkey]

end Serves

end SeveralKeys

/-! ## Statements -/

lemma Serves.callsOf (h : db.Serves refuses held) (s : σ) (statement : Statement) :
    (db.guarded refuses).callsOf s statement = refuses.callsFor statement := by
  cases statement with
  | set key value ttl => rfl
  | get keys =>
    rw [Database.callsOf, execute, h.calls_getAll, List.append_nil, List.reverse_reverse]
    rfl
  | delete keys =>
    rw [Database.callsOf, execute, h.calls_deleteAll, List.append_nil, List.reverse_reverse]
    rfl
  | auth username password => rfl

lemma Serves.callsOfAll (h : db.Serves refuses held) (s : σ) (statements : List Statement) :
    (db.guarded refuses).callsOfAll s statements = statements.flatMap refuses.callsFor := by
  induction statements generalizing s with
  | nil => rfl
  | cons statement rest ih => rw [Database.callsOfAll, h.callsOf, ih, List.flatMap_cons]

/-- A statement of which nothing is refused is run as if there were no guard. -/
lemma execute_guarded_of_granted {statement : Statement}
    (hgranted : refuses.refusal? statement = none) (s : σ) :
    (db.guarded refuses).execute s statement = db.execute s statement := by
  cases statement with
  | set key value ttl =>
    have hkey : refuses .write key = false := by simpa [Guard.refusal?] using hgranted
    rw [execute, guarded_set_of_granted hkey]
    rfl
  | get keys =>
    have hkeys : keys.any (refuses .read) = false := by simpa [Guard.refusal?] using hgranted
    rw [execute, getAll_guarded_of_granted hkeys]
    rfl
  | delete keys =>
    have hkeys : keys.any (refuses .delete) = false := by simpa [Guard.refusal?] using hgranted
    rw [execute, deleteAll_guarded_of_granted hkeys]
    rfl
  | auth username password => rfl

/-- A statement is answered by an error just if something of it is refused, and by that alone. -/
lemma Serves.execute_outcome (h : db.Serves refuses held) (s : σ) (statement : Statement) :
    match refuses.refusal? statement with
    | some operation =>
      ((db.guarded refuses).execute s statement).1 = .error (AccessDenied.mk operation).message
    | none => ((db.guarded refuses).execute s statement).1.isError = false := by
  cases statement with
  | set key value ttl =>
    have hrun : ((db.guarded refuses).execute s (.set key value ttl)).1 =
        respond (fun _ => .success)
          ((db.guarded refuses).set s key (Utf8.encode value) ttl).1 := rfl
    rw [hrun, Guard.refusal?]
    cases hkey : refuses .write key with
    | true => rw [guarded_set_of_refused hkey]; rfl
    | false => rw [guarded_set_of_granted hkey, h.set _ _ _ _ hkey]; rfl
  | get keys =>
    have hrun : ((db.guarded refuses).execute s (.get keys)).1 =
        respond .values ((db.guarded refuses).getAll s [] keys).1 := rfl
    have hget := h.getAll_outcome s [] keys
    rw [hrun, Guard.refusal?]
    cases hkeys : keys.any (refuses .read) with
    | true =>
      rw [if_pos hkeys] at hget
      rw [hget]
      rfl
    | false =>
      rw [if_neg (Bool.eq_false_iff.1 hkeys)] at hget
      obtain ⟨values, hvalues⟩ := hget
      rw [hvalues]
      rfl
  | delete keys =>
    have hrun : ((db.guarded refuses).execute s (.delete keys)).1 =
        respond (fun _ => .success) ((db.guarded refuses).deleteAll s keys).1 := rfl
    rw [hrun, Guard.refusal?, h.deleteAll_outcome]
    cases keys.any (refuses .delete) <;> rfl
  | auth username password =>
    have hrun : ((db.guarded refuses).execute s (.auth username password)).1 =
        if ((db.guarded refuses).authenticate s username password).1 then .authenticated
        else .invalidCredentials := rfl
    rw [hrun, Guard.refusal?]
    cases ((db.guarded refuses).authenticate s username password).1 <;> rfl

/-- What becomes of a statement behind a guard, in the state `s` that it finds: its response, and
the state `s'` that it leaves.  If something of it is refused, its line is that of the refusal and
holds nothing else; if nothing is, it does what it does without a guard, which is no error.  A
refused `SET` leaves everything as it is, and a `DEL` removes the keys before the first refused one
and nothing else. -/
structure Contained (db : Database σ) (refuses : Guard) (held : σ → String → Option β) (s : σ)
    (statement : Statement) (response : Response) (s' : σ) : Prop where
  refused : ∀ operation, refuses.refusal? statement = some operation →
    response.line =
      Utf8.encode ("ERROR: access denied: " ++ operation.word ++ " not permitted\n")
  granted : refuses.refusal? statement = none →
    (response, s') = db.execute s statement ∧ response.isError = false
  set_refused : ∀ key value ttl, statement = .set key value ttl → refuses .write key = true → s' = s
  held_delete : ∀ keys, statement = .delete keys → ∀ key,
    held s' key = if key ∈ refuses.granted .delete keys then none else held s key

/-- **A refusal is contained in its statement.** -/
theorem Serves.contained (h : db.Serves refuses held) (s : σ) (statement : Statement) :
    Contained db refuses held s statement ((db.guarded refuses).execute s statement).1
      ((db.guarded refuses).execute s statement).2 where
  refused operation hrefusal := by
    have houtcome := h.execute_outcome s statement
    rw [hrefusal] at houtcome
    rw [houtcome, AccessDenied.line_message]
  granted hgranted := by
    have houtcome := h.execute_outcome s statement
    rw [hgranted] at houtcome
    exact ⟨execute_guarded_of_granted hgranted s, houtcome⟩
  set_refused := by
    rintro key value ttl rfl hkey
    rw [execute, guarded_set_of_refused hkey]
  held_delete := by
    rintro keys rfl key
    exact h.held_deleteAll s keys key

end Database

end ExpiringStore
