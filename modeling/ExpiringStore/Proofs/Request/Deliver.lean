import ExpiringStore.Request.Run
import Mathlib.Tactic.Lemma

/-!
# Answers over a sink that does not fail

A sink may take an answer in parts of any size.  As long as it takes something whenever it is
offered something, and never fails, none of this can be seen afterwards: the request runs to its
end, the database is left as the statements leave it, and the bytes taken are the lines of the
responses, one behind the other.  `Outcome.Succeeds` says this of an outcome, and
`Database.runRequest_succeeds` says it of a request over every such sink.

A sink with a record of the bytes it took (`Sink.Tracks`) has recorded exactly the bytes of the
events, whether or not anything failed.
-/

namespace ExpiringStore

/-! ## Sinks -/

namespace Sink

variable {τ : Type u}

lemma bytesOf_append (a b : List Event) : bytesOf (a ++ b) = bytesOf a ++ bytesOf b := by
  simp [bytesOf]

/-- In the states `good` the sink does not fail and takes something of what it is offered, and it
stays in these states. -/
structure Reliable (sink : Sink τ) (good : τ → Prop) : Prop where
  write : ∀ t b bytes, good t → ∃ n t', sink.write t (b :: bytes) = (.ok (n + 1), t') ∧ good t'
  flush : ∀ t, good t → ∃ t', sink.flush t = (.ok (), t') ∧ good t'

/-- What a write with this result took of the bytes. -/
def taken (bytes : Bytes) : Except Fault Nat → Bytes
  | .ok n => bytes.take n
  | .error _ => []

/-- The record `seen` grows by what each write takes and by nothing else. -/
structure Tracks (sink : Sink τ) (seen : τ → Bytes) : Prop where
  write : ∀ t bytes, seen (sink.write t bytes).2 = seen t ++ taken bytes (sink.write t bytes).1
  flush : ∀ t, seen (sink.flush t).2 = seen t

lemma perfect_reliable : perfect.Reliable fun _ => True :=
  ⟨fun t _ bytes _ => ⟨bytes.length, t, rfl, trivial⟩, fun t _ => ⟨t, rfl, trivial⟩⟩

variable {sink : Sink τ} {good : τ → Prop} {seen : τ → Bytes}

lemma writeAll_nil (sink : Sink τ) (t : τ) : sink.writeAll t [] = ⟨.ok (), [], t⟩ := by
  rw [Sink.writeAll]

lemma writeAll_of_error {t t' : τ} {b : UInt8} {bytes : Bytes} {fault : Fault}
    (h : sink.write t (b :: bytes) = (.error fault, t')) :
    sink.writeAll t (b :: bytes) = ⟨.error fault, [], t'⟩ := by
  rw [Sink.writeAll, h]

lemma writeAll_of_zero {t t' : τ} {b : UInt8} {bytes : Bytes}
    (h : sink.write t (b :: bytes) = (.ok 0, t')) :
    sink.writeAll t (b :: bytes) = ⟨.error .writeZero, [.accepted []], t'⟩ := by
  rw [Sink.writeAll, h]

lemma writeAll_of_succ {t t' : τ} {b : UInt8} {bytes : Bytes} {n : Nat}
    (h : sink.write t (b :: bytes) = (.ok (n + 1), t')) :
    sink.writeAll t (b :: bytes) =
      { sink.writeAll t' ((b :: bytes).drop (n + 1)) with
        events := .accepted ((b :: bytes).take (n + 1)) ::
          (sink.writeAll t' ((b :: bytes).drop (n + 1))).events } := by
  rw [Sink.writeAll, h]

/-- All bytes offered are taken, in however many parts. -/
lemma Reliable.writeAll (h : sink.Reliable good) {t : τ} (ht : good t) (bytes : Bytes) :
    (sink.writeAll t bytes).result = .ok () ∧ bytesOf (sink.writeAll t bytes).events = bytes ∧
      good (sink.writeAll t bytes).sink := by
  induction t, bytes using Sink.writeAll.induct sink with
  | case1 t =>
    rw [writeAll_nil]
    exact ⟨rfl, rfl, ht⟩
  | case2 t b bytes fault t' hstep =>
    obtain ⟨k, _, hw, -⟩ := h.write t b bytes ht
    simp [hstep] at hw
  | case3 t b bytes t' hstep =>
    obtain ⟨k, _, hw, -⟩ := h.write t b bytes ht
    simp [hstep] at hw
  | case4 t b bytes n t' hstep ih =>
    obtain ⟨k, t'', hw, ht'⟩ := h.write t b bytes ht
    obtain rfl : t' = t'' := congrArg Prod.snd (hstep.symm.trans hw)
    obtain ⟨hresult, hbytes, hgood⟩ := ih ht'
    rw [writeAll_of_succ hstep]
    refine ⟨hresult, ?_, hgood⟩
    rw [bytesOf, List.flatMap_cons, ← bytesOf, hbytes]
    exact List.take_append_drop (n + 1) (b :: bytes)

lemma Reliable.writeLine (h : sink.Reliable good) {t : τ} (ht : good t) (line : Bytes) :
    (sink.writeLine t line).result = .ok () ∧ bytesOf (sink.writeLine t line).events = line ∧
      good (sink.writeLine t line).sink := by
  obtain ⟨hresult, hbytes, hgood⟩ := h.writeAll ht line
  obtain ⟨t', hf, ht'⟩ := h.flush _ hgood
  simp only [Sink.writeLine, hresult, hf]
  refine ⟨trivial, ?_, ht'⟩
  rw [bytesOf_append, hbytes]
  exact List.append_nil line

lemma Tracks.writeAll (h : sink.Tracks seen) (t : τ) (bytes : Bytes) :
    seen (sink.writeAll t bytes).sink = seen t ++ bytesOf (sink.writeAll t bytes).events := by
  induction t, bytes using Sink.writeAll.induct sink with
  | case1 t =>
    rw [writeAll_nil]
    exact (List.append_nil _).symm
  | case2 t b bytes fault t' hstep =>
    rw [writeAll_of_error hstep]
    simpa [hstep, taken, bytesOf] using h.write t (b :: bytes)
  | case3 t b bytes t' hstep =>
    rw [writeAll_of_zero hstep]
    simpa [hstep, taken, bytesOf, Event.bytes] using h.write t (b :: bytes)
  | case4 t b bytes n t' hstep ih =>
    have hw := h.write t (b :: bytes)
    rw [hstep] at hw
    simp only [taken] at hw
    rw [writeAll_of_succ hstep, ih, hw, List.append_assoc]
    rfl

lemma Tracks.writeLine (h : sink.Tracks seen) (t : τ) (line : Bytes) :
    seen (sink.writeLine t line).sink = seen t ++ bytesOf (sink.writeLine t line).events := by
  have hw := h.writeAll t line
  have hf := h.flush (sink.writeAll t line).sink
  simp only [Sink.writeLine]
  split
  · exact hw
  · rcases hstep : sink.flush (sink.writeAll t line).sink with ⟨fault | _, t'⟩
    · rw [hstep] at hf
      exact hf.trans hw
    · rw [hstep] at hf
      rw [bytesOf_append, ← List.append_assoc, ← hw]
      simpa [bytesOf, Event.bytes] using hf

end Sink

/-! ## Outcomes -/

/-- Nothing failed: the outcome has this result, left the database in this state, and its bytes
were all taken. -/
structure Outcome.Succeeds {σ : Type u} {τ : Type v} (o : Outcome α σ τ) (good : τ → Prop)
    (result : α) (state : σ) (bytes : Bytes) : Prop where
  result_eq : o.result = .ok result
  state_eq : o.state = state
  bytes_eq : Sink.bytesOf o.events = bytes
  good_sink : good o.sink

lemma Outcome.Succeeds.returning {σ : Type u} {τ : Type v} {o : Outcome α σ τ} {good : τ → Prop}
    {a : α} {state : σ} {bytes : Bytes} (h : o.Succeeds good a state bytes) (b : β) :
    (o.returning b).Succeeds good b state bytes := by
  refine ⟨?_, h.state_eq, h.bytes_eq, h.good_sink⟩
  simp only [Outcome.returning, h.result_eq]
  rfl

namespace Database

variable {σ : Type u} {τ : Type v} (db : Database σ) {sink : Sink τ} {good : τ → Prop}
  {seen : τ → Bytes}

lemma length_executeAll (s : σ) (statements : List Statement) :
    (db.executeAll s statements).1.length = statements.length := by
  induction statements generalizing s with
  | nil => rfl
  | cons statement rest ih => simp only [executeAll, List.length_cons, ih]

lemma reply_succeeds (h : sink.Reliable good) (s : σ) {t : τ} (ht : good t) (r : Response) :
    (reply sink s t r).Succeeds good () s r.line := by
  obtain ⟨hresult, hbytes, hgood⟩ := h.writeLine ht r.line
  exact ⟨hresult, rfl, hbytes, hgood⟩

lemma replyAll_succeeds (h : sink.Reliable good) (statements : List Statement) (s : σ) {t : τ}
    (ht : good t) :
    (db.replyAll sink s t statements).Succeeds good () (db.executeAll s statements).2
      ((db.executeAll s statements).1.flatMap Response.line) := by
  induction statements generalizing s t with
  | nil => exact ⟨rfl, rfl, rfl, ht⟩
  | cons statement rest ih =>
    have hfirst := reply_succeeds h (db.execute s statement).2 ht (db.execute s statement).1
    have hrest := ih (db.execute s statement).2 hfirst.good_sink
    simp only [replyAll, hfirst.result_eq, executeAll]
    refine ⟨hrest.result_eq, hrest.state_eq, ?_, hrest.good_sink⟩
    rw [Sink.bytesOf_append, hfirst.bytes_eq, hrest.bytes_eq, List.flatMap_cons]

/-- **A request over a sink that does not fail.**  Text that cannot be read is answered by one line
and leaves the database alone; statements are run in order and answered by a line each. -/
theorem runRequest_succeeds (h : sink.Reliable good) (s : σ) {t : τ} (ht : good t) (text : String) :
    match parse text with
    | .error e => (db.runRequest sink s t text).Succeeds good 0 s (Response.error e.message).line
    | .ok statements =>
      (db.runRequest sink s t text).Succeeds good statements.length
        (db.executeAll s statements).2
        ((db.executeAll s statements).1.flatMap Response.line) := by
  rw [runRequest]
  cases parse text with
  | error e => exact (reply_succeeds h s ht (.error e.message)).returning 0
  | ok statements => exact (db.replyAll_succeeds h statements s ht).returning statements.length

lemma runRequest_succeeds_of_ok (h : sink.Reliable good) (s : σ) {t : τ} (ht : good t)
    {text : String} {statements : List Statement} (hparse : parse text = .ok statements) :
    (db.runRequest sink s t text).Succeeds good statements.length (db.executeAll s statements).2
      ((db.executeAll s statements).1.flatMap Response.line) := by
  have hspec := db.runRequest_succeeds h s ht text
  rw [hparse] at hspec
  exact hspec

lemma runRequest_succeeds_of_error (h : sink.Reliable good) (s : σ) {t : τ} (ht : good t)
    {text : String} {e : ParseError} (hparse : parse text = .error e) :
    (db.runRequest sink s t text).Succeeds good 0 s (Response.error e.message).line := by
  have hspec := db.runRequest_succeeds h s ht text
  rw [hparse] at hspec
  exact hspec

/-- Over every sink that does not fail a request does what it does over the sink that takes
everything at once. -/
lemma runRequest_succeeds_perfect (h : sink.Reliable good) (s : σ) {t : τ} (ht : good t)
    (text : String) :
    ∃ n, (db.runRequest Sink.perfect s () text).result = .ok n ∧
      (db.runRequest sink s t text).Succeeds good n (db.runRequest Sink.perfect s () text).state
        (Sink.bytesOf (db.runRequest Sink.perfect s () text).events) := by
  have hthis := db.runRequest_succeeds h s ht text
  have hperfect := db.runRequest_succeeds Sink.perfect_reliable s (t := ()) trivial text
  cases hp : parse text with
  | error e =>
    rw [hp] at hthis hperfect
    refine ⟨0, hperfect.result_eq, ?_⟩
    rw [hperfect.state_eq, hperfect.bytes_eq]
    exact hthis
  | ok statements =>
    rw [hp] at hthis hperfect
    refine ⟨statements.length, hperfect.result_eq, ?_⟩
    rw [hperfect.state_eq, hperfect.bytes_eq]
    exact hthis

/-! ## Records of bytes -/

lemma reply_tracks (h : sink.Tracks seen) (s : σ) (t : τ) (r : Response) :
    seen (reply sink s t r).sink = seen t ++ Sink.bytesOf (reply sink s t r).events :=
  h.writeLine t r.line

lemma replyAll_tracks (h : sink.Tracks seen) (statements : List Statement) (s : σ) (t : τ) :
    seen (db.replyAll sink s t statements).sink =
      seen t ++ Sink.bytesOf (db.replyAll sink s t statements).events := by
  induction statements generalizing s t with
  | nil => exact (List.append_nil _).symm
  | cons statement rest ih =>
    have hfirst := reply_tracks h (db.execute s statement).2 t (db.execute s statement).1
    simp only [replyAll]
    split
    · exact hfirst
    · rw [ih, hfirst, List.append_assoc, Sink.bytesOf_append]

lemma runRequest_tracks (h : sink.Tracks seen) (s : σ) (t : τ) (text : String) :
    seen (db.runRequest sink s t text).sink =
      seen t ++ Sink.bytesOf (db.runRequest sink s t text).events := by
  rw [runRequest]
  split
  · exact reply_tracks h s t _
  · exact db.replyAll_tracks h _ s t

end Database

end ExpiringStore
