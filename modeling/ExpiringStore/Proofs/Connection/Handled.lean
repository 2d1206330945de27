import ExpiringStore.Proofs.Connection.Service
import ExpiringStore.Proofs.Request.Interrupted
import Mathlib.Algebra.GroupWithZero.Nat

/-!
# What is entered for a request

A line that a connection deals with is kept here as a `Handled`: the session it was found in, the
line, and the fault that cut its answer short, if one did.  From the session and the line alone it
is known how many statements a request runs and which lines answer it.  A request that is answered
in full is entered into the ledger with just that (`Scene.ledger_answer`), however its sink takes
the answer; a blank line, or a request that is cut short, is not entered.

Lines are dealt with in order up to the first one that is cut short (`Scene.handled`), so their
entries are put together (`Scene.ledger_answerAll`).
-/

namespace ExpiringStore

/-- A line that was dealt with. -/
structure Handled where
  /-- The session it was found in. -/
  session : Session
  /-- The line. -/
  line : Bytes
  /-- The fault that cut its answer short, if one did. -/
  fault : Option Fault

namespace Handled

/-- A request that was answered in full: a line that is not blank, without a fault. -/
def finished (h : Handled) : Bool :=
  !h.line.all Service.asciiBlanks.contains && h.fault.isNone

/-- The statements that the request runs. A line that is not UTF-8 or cannot be parsed has none. -/
def statements (h : Handled) : List Statement :=
  match Utf8.decode? h.line with
  | none => []
  | some text => (parse text).toOption.getD []

/-- The lines that answer the request. -/
def answer (h : Handled) : List Bytes :=
  match Utf8.decode? h.line with
  | none => [(Response.error "request is not valid UTF-8").line]
  | some text => Session.database.linesOf h.session text

end Handled

/-- The ledger after requests with their statements and the bytes of their answers. Those that were
not finished are left out. -/
def Ledger.entering (l : Ledger) (hs : List Handled) : Ledger :=
  let finished := hs.filter Handled.finished
  { l with
    requests := l.requests + UInt64.ofNat finished.length
    statements := l.statements + UInt64.ofNat (finished.map (·.statements.length)).sum
    written := l.written + UInt64.ofNat (finished.map (·.answer.flatten.length)).sum }

namespace Ledger

lemma entering_nil (l : Ledger) : l.entering [] = l := by simp [entering]

lemma entering_append (l : Ledger) (a b : List Handled) :
    l.entering (a ++ b) = (l.entering a).entering b := by
  simp [entering, UInt64.ofNat_add, UInt64.add_assoc]

lemma entering_unfinished (l : Ledger) {h : Handled} (hfinished : h.finished = false) :
    l.entering [h] = l := by
  simp [entering, hfinished]

lemma entering_finished (l : Ledger) {h : Handled} (hfinished : h.finished = true) :
    l.entering [h] = (l.answered h.statements.length).sent h.answer.flatten.length := by
  simp only [entering, List.filter_cons, hfinished, if_true, List.filter_nil, List.map_cons,
    List.map_nil, List.sum_cons, List.sum_nil, Nat.add_zero, List.length_singleton]
  rfl

end Ledger

namespace Scene

variable {τ : Type u} (sink : Sink τ)

/-- The lines that a scene deals with: all in order, up to the first one that is cut short. -/
def handled (scene : Scene τ) : List Bytes → List Handled
  | [] => []
  | line :: lines =>
    let (fault, next) := scene.answer sink line
    ⟨scene.session, line, fault⟩ :: if fault.isSome then [] else next.handled lines

/-- A request over any sink: if nothing fails then it has run its statements and the bytes of its
answer were taken. -/
lemma runLine_of_ok {scene : Scene τ} {line : Bytes} {executed : Nat}
    (h : (scene.runLine sink line).result = .ok executed) :
    executed = (⟨scene.session, line, none⟩ : Handled).statements.length ∧
      Sink.bytesOf (scene.runLine sink line).events =
        (⟨scene.session, line, none⟩ : Handled).answer.flatten := by
  simp only [runLine, Handled.statements, Handled.answer] at h ⊢
  cases hdecode : Utf8.decode? line with
  | none =>
    simp only [hdecode, Database.reply, Outcome.returning] at h ⊢
    have hexecuted := Database.eq_of_map_eq_ok h
    cases hresult : (sink.writeLine scene.sink
      (Response.error "request is not valid UTF-8").line).result with
    | error fault =>
      rw [hresult] at h
      cases h
    | ok _ =>
      refine ⟨hexecuted, ?_⟩
      rw [sink.bytesOf_writeLine_of_ok hresult, List.flatten_singleton]
  | some text =>
    simp only [hdecode] at h ⊢
    exact Session.database.runRequest_of_ok sink h

/-- **What is entered for one line.** -/
lemma ledger_answer (scene : Scene τ) (line : Bytes) :
    (scene.answer sink line).2.ledger =
      scene.ledger.entering [⟨scene.session, line, (scene.answer sink line).1⟩] := by
  by_cases hblank : line.all Service.asciiBlanks.contains = true
  · have hanswer : scene.answer sink line = (none, scene) := by
      rw [answer, Service.isBlankByte_eq, if_pos hblank]
    rw [hanswer, Ledger.entering_unfinished _ (by simp [Handled.finished, hblank])]
  · cases hresult : (scene.runLine sink line).result with
    | error fault =>
      have hanswer : scene.answer sink line =
          (some fault, ⟨(scene.runLine sink line).state, scene.ledger,
            (scene.runLine sink line).sink⟩) := by
        rw [answer, Service.isBlankByte_eq, if_neg hblank]
        simp only [hresult]
      rw [hanswer, Ledger.entering_unfinished _ (by simp [Handled.finished])]
    | ok executed =>
      obtain ⟨rfl, hbytes⟩ := runLine_of_ok sink hresult
      let h : Handled := ⟨scene.session, line, none⟩
      have hanswer : scene.answer sink line =
          (none, ⟨(scene.runLine sink line).state,
            (scene.ledger.answered h.statements.length).sent h.answer.flatten.length,
            (scene.runLine sink line).sink⟩) := by
        rw [answer, Service.isBlankByte_eq, if_neg hblank]
        simp only [hresult, hbytes, h]
      rw [hanswer, Ledger.entering_finished _ (by simp [Handled.finished, hblank])]

/-! ## Lines in order -/

variable {scene next : Scene τ} {line : Bytes} (lines : List Bytes)

lemma of_answer_fault {fault : Fault} (h : scene.answer sink line = (some fault, next)) :
    scene.answerAll sink (line :: lines) = (some fault, next) ∧
      scene.handled sink (line :: lines) = [⟨scene.session, line, some fault⟩] := by
  rw [answerAll, handled, h]
  exact ⟨rfl, rfl⟩

lemma of_answer_none (h : scene.answer sink line = (none, next)) :
    scene.answerAll sink (line :: lines) = next.answerAll sink lines ∧
      scene.handled sink (line :: lines) =
        ⟨scene.session, line, none⟩ :: next.handled sink lines := by
  rw [answerAll, handled, h]
  exact ⟨rfl, rfl⟩

/-- **What is entered for lines in order.** -/
lemma ledger_answerAll (scene : Scene τ) (lines : List Bytes) :
    (scene.answerAll sink lines).2.ledger =
      scene.ledger.entering (scene.handled sink lines) := by
  induction lines generalizing scene with
  | nil => exact (Ledger.entering_nil _).symm
  | cons line lines ih =>
    have hfirst := scene.ledger_answer sink line
    rcases hanswer : scene.answer sink line with ⟨fault | fault, next⟩ <;> rw [hanswer] at hfirst
    · obtain ⟨hall, hhandled⟩ := of_answer_none sink lines hanswer
      rw [hall, hhandled, ← List.singleton_append, Ledger.entering_append, ← hfirst]
      exact ih next
    · obtain ⟨hall, hhandled⟩ := of_answer_fault sink lines hanswer
      rw [hall, hhandled]
      exact hfirst

end Scene

/-- Requests that were dealt with, out of those that there were: all in order, up to the first one
that was cut short, which has ended with `fault`. -/
inductive Dealt : List Bytes → List Handled → Option Fault → Prop
  | all : Dealt [] [] none
  | cut (session line lines fault) :
      Dealt (line :: lines) [⟨session, line, some fault⟩] (some fault)
  | next {lines hs fault} (session line) (h : Dealt lines hs fault) :
      Dealt (line :: lines) (⟨session, line, none⟩ :: hs) fault

namespace Dealt

variable {lines more : List Bytes} {hs hs' : List Handled} {fault : Option Fault}

lemma append (h : Dealt lines hs none) (hmore : Dealt more hs' fault) :
    Dealt (lines ++ more) (hs ++ hs') fault := by
  generalize hnone : (none : Option Fault) = fault' at h
  induction h with
  | all => exact hmore
  | cut => cases hnone
  | next session line _ ih => exact .next session line (ih hnone)

end Dealt

lemma Scene.dealt_handled {τ : Type u} (sink : Sink τ) (scene : Scene τ) (lines : List Bytes) :
    Dealt lines (scene.handled sink lines) (scene.answerAll sink lines).1 := by
  induction lines generalizing scene with
  | nil => exact .all
  | cons line lines ih =>
    rcases hanswer : scene.answer sink line with ⟨fault | fault, next⟩
    · obtain ⟨hall, hhandled⟩ := of_answer_none sink lines hanswer
      rw [hall, hhandled]
      exact .next _ _ (ih next)
    · obtain ⟨hall, hhandled⟩ := of_answer_fault sink lines hanswer
      rw [hall, hhandled]
      exact .cut _ _ _ _

end ExpiringStore
