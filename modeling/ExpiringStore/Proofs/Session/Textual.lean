import ExpiringStore.Proofs.Request.Interrupted
import ExpiringStore.Proofs.Response.Display
import ExpiringStore.Proofs.Session.Statements

/-!
# Data that is text

The values that statements write are parts of a text, so they are UTF-8, and nothing else that
happens to the data puts a value into it.  Where all values held are UTF-8 (`Store.Textual`) a
statement leaves them so, and what it answers can be read as text (`Session.textual_execute`).  The
same holds of a whole request, wherever its sink puts an end to it.
-/

namespace ExpiringStore

/-! ## Stores -/

namespace Store

variable {α : Type u}

/-- Whatever is held in the one store is held in the other. -/
def Within (s t : Store α) : Prop := ∀ key e, s.find? key = some e → t.find? key = some e

lemma Within.refl (s : Store α) : Within s s := fun _ _ h => h

lemma Within.trans {s t u : Store α} (h : Within s t) (h' : Within t u) : Within s u :=
  fun key e he => h' key e (h key e he)

lemma within_delete (s : Store α) (key : Bytes) : Within (s.delete key).2 s := by
  intro other e he
  rw [find?_delete] at he
  split_ifs at he
  exact he

lemma within_get (s : Store α) (now : Instant) (key : Bytes) : Within (s.get now key).2 s := by
  intro other e he
  rw [find?_get] at he
  split_ifs at he with hkey
  · rw [hkey]
    exact (Option.filter_eq_some_iff.1 he).1
  · exact he

lemma within_removeExpired (s : Store α) (now : Instant) : Within (s.removeExpired now).2 s := by
  intro key e he
  rw [find?_removeExpired] at he
  exact (Option.filter_eq_some_iff.1 he).1

lemma within_deleteAll (s : Store α) (keys : List Bytes) : Within (s.deleteAll keys) s := by
  induction keys generalizing s with
  | nil => exact .refl s
  | cons key keys ih => exact (ih (s.delete key).2).trans (s.within_delete key)

lemma within_getAll (s : Store α) (now : Instant) (keys : List Bytes) :
    Within (s.getAll now keys) s := by
  induction keys generalizing s with
  | nil => exact .refl s
  | cons key keys ih => exact (ih (s.get now key).2).trans (s.within_get now key)

/-- Every value held is UTF-8. -/
def Textual (s : Store Bytes) : Prop := ∀ key e, s.find? key = some e → Utf8.Valid e.value

variable {s t : Store Bytes}

lemma textual_empty (placement : Placement) (usual : Expiry) :
    (empty placement usual : Store Bytes).Textual := by
  intro key e he
  rw [find?_empty] at he
  cases he

lemma Textual.of_within (h : t.Textual) (hs : Within s t) : s.Textual :=
  fun key e he => h key e (hs key e he)

lemma Textual.set (h : s.Textual) (now : Instant) (key : Bytes) {value : Bytes}
    (hvalue : Utf8.Valid value) (expiry : Option Expiry) :
    (s.set now key value expiry).2.Textual := by
  intro other e he
  rw [find?_set] at he
  split_ifs at he
  · cases he
    exact hvalue
  · exact h other e he

lemma Textual.visible (h : s.Textual) {now : Instant} {key value : Bytes}
    (hvalue : s.visible now key = some value) : Utf8.Valid value := by
  obtain ⟨e, he, rfl⟩ := Option.map_eq_some_iff.1 hvalue
  exact h key e (Option.filter_eq_some_iff.1 he).1

end Store

/-! ## Sessions -/

namespace Session

open Response (TextLine)

variable {s : Session}

/-- **One statement** keeps the values UTF-8, and the values it answers with are. -/
lemma textual_execute (h : s.stores.data.Textual) (statement : Statement) :
    (database.execute s statement).2.stores.data.Textual ∧
      (database.execute s statement).1.Textual := by
  cases statement with
  | set key value ttl =>
    rw [execute_set]
    exact ⟨h.set s.stores.now (Utf8.encode key) (Utf8.valid_encode value) _, trivial⟩
  | get keys =>
    rw [execute_get]
    refine ⟨h.of_within (s.stores.data.within_getAll s.stores.now _), fun value hvalue => ?_⟩
    obtain ⟨key, -, hkey⟩ := List.mem_map.1 hvalue
    exact h.visible hkey
  | delete keys =>
    rw [execute_delete]
    exact ⟨h.of_within (s.stores.data.within_deleteAll _), trivial⟩
  | auth username password =>
    rw [(execute_auth s username password).1]
    refine ⟨h, ?_⟩
    simp only [Database.execute]
    split_ifs <;> trivial

lemma textual_executeAll (h : s.stores.data.Textual) (statements : List Statement) :
    (database.executeAll s statements).2.stores.data.Textual ∧
      ∀ r ∈ (database.executeAll s statements).1, r.Textual := by
  induction statements generalizing s with
  | nil => exact ⟨h, nofun⟩
  | cons statement rest ih =>
    obtain ⟨hdata, hresponse⟩ := textual_execute h statement
    obtain ⟨hrest, hresponses⟩ := ih hdata
    exact ⟨hrest, List.forall_mem_cons.2 ⟨hresponse, hresponses⟩⟩

lemma textual_replyAll {τ : Type v} (sink : Sink τ) (h : s.stores.data.Textual) (t : τ)
    (statements : List Statement) :
    (database.replyAll sink s t statements).state.stores.data.Textual := by
  induction statements generalizing s t with
  | nil => exact h
  | cons statement rest ih =>
    have hdata := (textual_execute h statement).1
    simp only [Database.replyAll]
    split
    · exact hdata
    · exact ih hdata _

/-- A request keeps the values UTF-8, over any sink. -/
lemma textual_runRequest {τ : Type v} (sink : Sink τ) (h : s.stores.data.Textual) (t : τ)
    (text : String) : (database.runRequest sink s t text).state.stores.data.Textual := by
  rw [Database.runRequest]
  cases parse text with
  | error e => exact h
  | ok statements => exact textual_replyAll sink h t statements

/-- **The lines that answer a request** can be read as text. -/
lemma textLine_linesOf (h : s.stores.data.Textual) (text : String) :
    ∀ line ∈ database.linesOf s text, TextLine line := by
  rw [Database.linesOf]
  cases parse text with
  | error e =>
    have herror : (Response.error e.message).Textual := trivial
    exact List.forall_mem_singleton.2 herror.textLine
  | ok statements =>
    intro line hline
    obtain ⟨r, hr, rfl⟩ := List.mem_map.1 hline
    exact ((textual_executeAll h statements).2 r hr).textLine

end Session

end ExpiringStore
