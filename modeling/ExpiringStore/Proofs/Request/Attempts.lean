import ExpiringStore.Proofs.Request.Deliver

/-!
# What is attempted at a sink

A sink may take a part of what it is offered, take nothing, or fail, and a flush may fail.  To tell
what was attempted, also where nothing came of it, a sink is given a log: `Sink.logged` does what
the sink does and writes every attempt down with its outcome (`Shows`).

A line is `PassedOn` by writes that take something each until nothing of it is left, and one flush.
It is `CutShort` by a fault when the last of its attempts has failed: a write of what was left, a
write that took nothing, or the flush.  These are the two ways in which a line can go
(`writeLine_logged`), and lines that are sent one after another make `Progress` up to the first one
that is cut short.
-/

namespace ExpiringStore.Sink

variable {τ : Type u} {υ : Type v}

/-! ## Sinks with a log -/

/-- An attempt to pass something on, and its outcome. -/
inductive Attempt where
  /-- Bytes were offered; the outcome is how many of them were taken. -/
  | write (offered : Bytes) (outcome : Except Fault Nat)
  /-- A flush. -/
  | flush (outcome : Except Fault Unit)

/-- The bytes taken in an attempt. -/
def Attempt.bytes : Attempt → Bytes
  | write offered outcome => taken offered outcome
  | flush _ => []

/-- A state with all attempts that led to it, in order. -/
structure Logged (τ : Type u) where
  state : τ
  attempts : List Attempt

/-- The sink that writes down every attempt. -/
def logged (sink : Sink τ) : Sink (Logged τ) where
  write l bytes :=
    let (outcome, t) := sink.write l.state bytes
    (outcome, ⟨t, l.attempts ++ [.write bytes outcome]⟩)
  flush l :=
    let (outcome, t) := sink.flush l.state
    (outcome, ⟨t, l.attempts ++ [.flush outcome]⟩)

/-- The bytes that were taken are those of the attempts. -/
lemma logged_tracks (sink : Sink τ) : sink.logged.Tracks (·.attempts.flatMap Attempt.bytes) where
  write l bytes := by simp [logged, Attempt.bytes]
  flush l := by simp [logged, Attempt.bytes]

/-- Looked at through `view`, the sink `richer` is the sink `sink`. -/
structure Shows (richer : Sink υ) (view : υ → τ) (sink : Sink τ) : Prop where
  write : ∀ u bytes, sink.write (view u) bytes =
    ((richer.write u bytes).1, view (richer.write u bytes).2)
  flush : ∀ u, sink.flush (view u) = ((richer.flush u).1, view (richer.flush u).2)

lemma logged_shows (sink : Sink τ) : sink.logged.Shows Logged.state sink :=
  ⟨fun _ _ => rfl, fun _ => rfl⟩

section Shows

variable {richer : Sink υ} {view : υ → τ} {sink : Sink τ}

lemma Shows.writeAll (h : richer.Shows view sink) (u : υ) (bytes : Bytes) :
    sink.writeAll (view u) bytes =
      ⟨(richer.writeAll u bytes).result, (richer.writeAll u bytes).events,
        view (richer.writeAll u bytes).sink⟩ := by
  induction u, bytes using Sink.writeAll.induct richer with
  | case1 u => rw [writeAll_nil, writeAll_nil]
  | case2 u b bytes fault u' hstep =>
    have hplain := h.write u (b :: bytes)
    rw [hstep] at hplain
    rw [writeAll_of_error hstep, writeAll_of_error hplain]
  | case3 u b bytes u' hstep =>
    have hplain := h.write u (b :: bytes)
    rw [hstep] at hplain
    rw [writeAll_of_zero hstep, writeAll_of_zero hplain]
  | case4 u b bytes n u' hstep ih =>
    have hplain := h.write u (b :: bytes)
    rw [hstep] at hplain
    rw [writeAll_of_succ hstep, writeAll_of_succ hplain, ih]

lemma Shows.writeLine (h : richer.Shows view sink) (u : υ) (line : Bytes) :
    sink.writeLine (view u) line =
      ⟨(richer.writeLine u line).result, (richer.writeLine u line).events,
        view (richer.writeLine u line).sink⟩ := by
  simp only [Sink.writeLine, h.writeAll]
  cases hresult : (richer.writeAll u line).result with
  | error fault => simp only [hresult]
  | ok _ =>
    simp only [h.flush]
    rcases richer.flush (richer.writeAll u line).sink with ⟨fault | _, u'⟩ <;> rfl

end Shows

/-! ## One line -/

/-- Writes that take something each have left `rest` of the bytes. -/
inductive Writes : Bytes → List Attempt → Bytes → Prop
  | none (bytes) : Writes bytes [] bytes
  | more {b bytes n writes rest} (h : Writes ((b :: bytes).drop (n + 1)) writes rest) :
      Writes (b :: bytes) (.write (b :: bytes) (.ok (n + 1)) :: writes) rest

/-- The attempt that comes when `rest` is left of a line, if it fails. -/
inductive Fails (fault : Fault) : Bytes → Attempt → Prop
  | refused (b bytes) : Fails fault (b :: bytes) (.write (b :: bytes) (.error fault))
  | nothing (b bytes) (h : fault = .writeZero) :
      Fails fault (b :: bytes) (.write (b :: bytes) (.ok 0))
  | unflushed : Fails fault [] (.flush (.error fault))

/-- The attempts by which a line was passed on. -/
def PassedOn (line : Bytes) (made : List Attempt) : Prop :=
  ∃ writes, Writes line writes [] ∧ made = writes ++ [.flush (.ok ())]

/-- The attempts at a line that was cut short by a fault. -/
def CutShort (fault : Fault) (line : Bytes) (made : List Attempt) : Prop :=
  ∃ writes rest failure, Writes line writes rest ∧ Fails fault rest failure ∧
    made = writes ++ [failure]

lemma Writes.bytes_append {bytes rest : Bytes} {writes : List Attempt}
    (h : Writes bytes writes rest) : writes.flatMap Attempt.bytes ++ rest = bytes := by
  induction h with
  | none => rfl
  | @more b bytes n writes rest h ih =>
    rw [List.flatMap_cons, List.append_assoc, ih]
    exact List.take_append_drop (n + 1) (b :: bytes)

lemma Fails.bytes_eq {fault : Fault} {rest : Bytes} {failure : Attempt}
    (h : Fails fault rest failure) : failure.bytes = [] := by
  cases h <;> rfl

lemma PassedOn.bytes_eq {line : Bytes} {made : List Attempt} (h : PassedOn line made) :
    made.flatMap Attempt.bytes = line := by
  obtain ⟨writes, hwrites, rfl⟩ := h
  simpa [Attempt.bytes] using hwrites.bytes_append

lemma CutShort.bytes_prefix {fault : Fault} {line : Bytes} {made : List Attempt}
    (h : CutShort fault line made) : made.flatMap Attempt.bytes <+: line := by
  obtain ⟨writes, rest, failure, hwrites, hfails, rfl⟩ := h
  refine ⟨rest, ?_⟩
  simpa [hfails.bytes_eq] using hwrites.bytes_append

variable (sink : Sink τ)

lemma attempts_write {l l' : Logged τ} {bytes : Bytes} {outcome : Except Fault Nat}
    (h : sink.logged.write l bytes = (outcome, l')) :
    l'.attempts = l.attempts ++ [.write bytes outcome] := by
  cases h
  rfl

lemma attempts_flush {l l' : Logged τ} {outcome : Except Fault Unit}
    (h : sink.logged.flush l = (outcome, l')) : l'.attempts = l.attempts ++ [.flush outcome] := by
  cases h
  rfl

/-- Offering bytes until all are taken ends when they are, or in a failure. -/
lemma writeAll_logged (l : Logged τ) (bytes : Bytes) :
    ∃ writes rest, Writes bytes writes rest ∧
      ((sink.logged.writeAll l bytes).result = .ok () ∧ rest = [] ∧
          (sink.logged.writeAll l bytes).sink.attempts = l.attempts ++ writes ∨
        ∃ fault failure, (sink.logged.writeAll l bytes).result = .error fault ∧
          Fails fault rest failure ∧
          (sink.logged.writeAll l bytes).sink.attempts = l.attempts ++ (writes ++ [failure])) := by
  induction l, bytes using Sink.writeAll.induct sink.logged with
  | case1 l =>
    rw [writeAll_nil]
    exact ⟨[], [], .none [], .inl ⟨rfl, rfl, (List.append_nil _).symm⟩⟩
  | case2 l b bytes fault l' hstep =>
    rw [writeAll_of_error hstep]
    exact ⟨[], _, .none _, .inr ⟨fault, _, rfl, .refused b bytes, sink.attempts_write hstep⟩⟩
  | case3 l b bytes l' hstep =>
    rw [writeAll_of_zero hstep]
    exact ⟨[], _, .none _, .inr ⟨_, _, rfl, .nothing b bytes rfl, sink.attempts_write hstep⟩⟩
  | case4 l b bytes n l' hstep ih =>
    obtain ⟨writes, rest, hwrites, hend⟩ := ih
    rw [writeAll_of_succ hstep]
    simp only [sink.attempts_write hstep, List.append_assoc] at hend
    exact ⟨_, rest, .more hwrites, hend⟩

/-- **A line is passed on or cut short.** -/
theorem writeLine_logged (l : Logged τ) (line : Bytes) :
    ∃ made, (sink.logged.writeLine l line).sink.attempts = l.attempts ++ made ∧
      match (sink.logged.writeLine l line).result with
      | .ok _ => PassedOn line made
      | .error fault => CutShort fault line made := by
  obtain ⟨writes, rest, hwrites, ⟨hresult, rfl, hattempts⟩ |
    ⟨fault, failure, hresult, hfails, hattempts⟩⟩ := sink.writeAll_logged l line
  · simp only [Sink.writeLine, hresult]
    rcases hstep : sink.logged.flush (sink.logged.writeAll l line).sink with ⟨fault | _, l'⟩ <;>
      have hflush := sink.attempts_flush hstep <;>
      rw [hattempts, List.append_assoc] at hflush
    · exact ⟨_, hflush, writes, [], _, hwrites, .unflushed, rfl⟩
    · exact ⟨_, hflush, writes, hwrites, rfl⟩
  · simp only [Sink.writeLine, hresult]
    exact ⟨_, hattempts, writes, rest, failure, hwrites, hfails, rfl⟩

/-- If nothing fails then the bytes taken are the line. -/
lemma bytesOf_writeLine_of_ok {t : τ} {line : Bytes} (h : (sink.writeLine t line).result = .ok ()) :
    bytesOf (sink.writeLine t line).events = line := by
  have hshows := sink.logged_shows.writeLine ⟨t, []⟩ line
  simp only at hshows
  obtain ⟨made, hmade, hline⟩ := sink.writeLine_logged ⟨t, []⟩ line
  have htaken := sink.logged_tracks.writeLine ⟨t, []⟩ line
  simp only [hmade, List.nil_append, List.flatMap_nil] at htaken
  rw [hshows] at h ⊢
  simp only at h
  rw [h] at hline
  exact htaken.symm.trans hline.bytes_eq

/-! ## Lines one after another -/

/-- The attempts made to send lines: so many of them were passed on, each before the first attempt
at the next one, and if there was a fault then the next line was cut short by it. -/
inductive Progress : List Bytes → List Attempt → Nat → Option Fault → Prop
  | done : Progress [] [] 0 none
  | stopped {line lines made fault} (h : CutShort fault line made) :
      Progress (line :: lines) made 0 (some fault)
  | next {line lines made rest count fault} (h : PassedOn line made)
      (hrest : Progress lines rest count fault) :
      Progress (line :: lines) (made ++ rest) (count + 1) fault

section Progress

variable {lines : List Bytes} {made : List Attempt} {count : Nat}

lemma Progress.bytes_prefix {fault : Option Fault} (h : Progress lines made count fault) :
    made.flatMap Attempt.bytes <+: lines.flatten := by
  induction h with
  | done => exact List.prefix_refl []
  | stopped h => exact h.bytes_prefix.trans (List.prefix_append _ _)
  | next h hrest ih =>
    rw [List.flatMap_append, h.bytes_eq, List.flatten_cons]
    exact (List.prefix_append_right_inj _).2 ih

/-- All lines before the one that was cut short are taken. -/
lemma Progress.prefix_bytes {fault : Option Fault} (h : Progress lines made count fault) :
    (lines.take count).flatten <+: made.flatMap Attempt.bytes := by
  induction h with
  | done => exact List.prefix_refl []
  | stopped h => exact List.nil_prefix
  | next h hrest ih =>
    rw [List.flatMap_append, h.bytes_eq, List.take_succ_cons, List.flatten_cons]
    exact (List.prefix_append_right_inj _).2 ih

lemma Progress.of_no_fault (h : Progress lines made count none) :
    made.flatMap Attempt.bytes = lines.flatten ∧ count = lines.length := by
  generalize hfault : (none : Option Fault) = fault at h
  induction h with
  | done => exact ⟨rfl, rfl⟩
  | stopped h => cases hfault
  | next h hrest ih =>
    obtain ⟨hbytes, rfl⟩ := ih hfault
    rw [List.flatMap_append, h.bytes_eq, hbytes]
    exact ⟨rfl, rfl⟩

lemma Progress.count_lt {fault : Fault} (h : Progress lines made count (some fault)) :
    count < lines.length := by
  generalize hfault : some fault = fault' at h
  induction h with
  | done => cases hfault
  | stopped h => exact Nat.succ_pos _
  | next h hrest ih => exact Nat.succ_lt_succ (ih hfault)

end Progress

end ExpiringStore.Sink
