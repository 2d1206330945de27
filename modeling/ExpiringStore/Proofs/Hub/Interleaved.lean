import ExpiringStore.Proofs.Hub.Session

/-!
# Clients that work on different keys

Two clients send statements to their sessions, and the statements of the one may come anywhere
between those of the other.  If no key is named by both, neither can tell: each gets the responses
that it would get if the first client had finished before the second began, and the stores and the
sessions end up the same (`run_interleaved`).

The argument has two halves.  Statements in different sessions that name different keys are
independent (`independent_statements`): in either order they lead to the same hub, and neither
changes the answer to the other.  And in a run a step can be moved past others that are independent
of it (`run_step_comm`), so that an interleaving can be sorted (`Interleaves.run_eq`).
-/

namespace ExpiringStore.Hub

/-! ## Independent steps -/

/-- The steps may change places. -/
structure Step.Independent (a b : Step) : Prop where
  comm : ∀ h : Hub, ((h.step a).2.step b).2 = ((h.step b).2.step a).2
  left : ∀ h : Hub, ((h.step b).2.step a).1 = (h.step a).1
  right : ∀ h : Hub, ((h.step a).2.step b).1 = (h.step b).1

/-- What a statement in another session leaves of one that names different keys. -/
private lemma step_after_statement (h : Hub) {i j : Nat} (hij : i ≠ j) {a b : Statement}
    (hkeys : ∀ key ∈ a.keys, key ∉ b.keys) :
    ((h.step (.statement j b)).2.step (.statement i a)).1 = (h.step (.statement i a)).1 := by
  cases hj : h.session? j with
  | none => rw [step_statement_absent hj]
  | some own =>
    rw [step_statement_eq hj]
    have hi := h.session?_withSession_of_ne hij (own.after b)
    have hown := stores_of_session? hj
    cases his : h.session? i with
    | none =>
      rw [his] at hi
      rw [step_statement_absent hi, step_statement_absent his]
    | some s =>
      rw [his] at hi
      rw [step_statement_eq hi, step_statement_eq his, stores_withSession, Session.after, hown,
        h.stores.response_after hkeys]

/-- **Statements in different sessions that name different keys** are independent. -/
theorem independent_statements {i j : Nat} (hij : i ≠ j) {a b : Statement}
    (hkeys : ∀ key ∈ a.keys, key ∉ b.keys) :
    (Step.statement i a).Independent (.statement j b) := by
  have hkeys' : ∀ key ∈ b.keys, key ∉ a.keys := fun key hb ha => hkeys key ha hb
  refine ⟨fun h => ?_, fun h => h.step_after_statement hij hkeys,
    fun h => h.step_after_statement hij.symm hkeys'⟩
  cases hi : h.session? i with
  | none =>
    rw [step_statement_absent hi]
    cases hj : h.session? j with
    | none => rw [step_statement_absent hj, step_statement_absent hi]
    | some t =>
      have hi' := h.session?_withSession_of_ne hij (t.after b)
      rw [hi] at hi'
      rw [step_statement_eq hj, step_statement_absent hi']
  | some s =>
    have hj' := h.session?_withSession_of_ne hij.symm (s.after a)
    cases hj : h.session? j with
    | none =>
      rw [hj] at hj'
      rw [step_statement_absent hj, step_statement_eq hi, step_statement_absent hj']
    | some t =>
      have hi' := h.session?_withSession_of_ne hij (t.after b)
      rw [hi] at hi'
      rw [hj] at hj'
      rw [step_statement_eq hi, step_statement_eq hj', step_statement_eq hj, step_statement_eq hi']
      simp only [Session.after, stores_of_session? hi, stores_of_session? hj, Stores.known_after,
        h.stores.after_comm hkeys]
      exact h.withSession_comm hij _ _ _ _ _

/-! ## Runs of independent steps -/

/-- A step that is independent of all others may come before or after them. -/
lemma run_step_comm (h : Hub) {steps : List Step} {last : Step}
    (hindependent : ∀ step ∈ steps, step.Independent last) :
    (h.step last).2.run steps = ((h.run steps).1, ((h.run steps).2.step last).2) ∧
      ((h.run steps).2.step last).1 = (h.step last).1 := by
  induction steps generalizing h with
  | nil => exact ⟨rfl, rfl⟩
  | cons first steps ih =>
    have hfirst := hindependent first List.mem_cons_self
    have hrest : ∀ step ∈ steps, step.Independent last := fun step hstep =>
      hindependent step (List.mem_cons_of_mem first hstep)
    obtain ⟨hrun, hanswer⟩ := ih (h.step first).2 hrest
    refine ⟨?_, ?_⟩
    · rw [run_cons, hfirst.left h, ← hfirst.comm h, hrun, run_cons]
    · exact hanswer.trans (hfirst.right h)

/-- `steps` consists of the two other lists, each in its own order. -/
inductive Interleaves : List Step → List Step → List Step → Prop
  | nil : Interleaves [] [] []
  | left (step : Step) {first second steps : List Step} :
      Interleaves first second steps → Interleaves (step :: first) second (step :: steps)
  | right (step : Step) {first second steps : List Step} :
      Interleaves first second steps → Interleaves first (step :: second) (step :: steps)

/-- The answers to the steps that happen in a session. -/
def answersIn (index : Nat) (steps : List Step) (answers : List Answer) : List Answer :=
  ((steps.zip answers).filter fun r => r.1.session? = some index).map Prod.snd

lemma answersIn_cons_of_eq {index : Nat} {step : Step} (h : step.session? = some index)
    (steps : List Step) (answer : Answer) (answers : List Answer) :
    answersIn index (step :: steps) (answer :: answers) =
      answer :: answersIn index steps answers := by
  simp [answersIn, h]

lemma answersIn_cons_of_ne {index other : Nat} {step : Step} (h : step.session? = some other)
    (hne : other ≠ index) (steps : List Step) (answer : Answer) (answers : List Answer) :
    answersIn index (step :: steps) (answer :: answers) = answersIn index steps answers := by
  simp [answersIn, h, hne]

/-- An interleaving can be sorted. -/
lemma Interleaves.run_eq {i j : Nat} (hij : i ≠ j) {first second steps : List Step}
    (hsteps : Interleaves first second steps)
    (hfirst : ∀ step ∈ first, step.session? = some i)
    (hsecond : ∀ step ∈ second, step.session? = some j)
    (hindependent : ∀ a ∈ first, ∀ b ∈ second, a.Independent b) (h : Hub) :
    answersIn i steps (h.run steps).1 = (h.run first).1 ∧
    answersIn j steps (h.run steps).1 = ((h.run first).2.run second).1 ∧
    (h.run steps).2 = ((h.run first).2.run second).2 := by
  induction hsteps generalizing h with
  | nil => exact ⟨rfl, rfl, rfl⟩
  | @left step first second steps _ ih =>
    have hi : step.session? = some i := hfirst step List.mem_cons_self
    obtain ⟨hown, hother, hhub⟩ := ih (fun a ha => hfirst a (List.mem_cons_of_mem step ha)) hsecond
      (fun a ha => hindependent a (List.mem_cons_of_mem step ha)) (h.step step).2
    refine ⟨?_, ?_, hhub⟩
    · rw [run_cons, answersIn_cons_of_eq hi, hown, run_cons]
    · rw [run_cons, answersIn_cons_of_ne hi hij, hother, run_cons]
  | @right step first second steps _ ih =>
    have hj : step.session? = some j := hsecond step List.mem_cons_self
    obtain ⟨hown, hother, hhub⟩ := ih hfirst (fun b hb => hsecond b (List.mem_cons_of_mem step hb))
      (fun a ha b hb => hindependent a ha b (List.mem_cons_of_mem step hb)) (h.step step).2
    -- the step comes first here, and after all of `first` in the sorted run
    obtain ⟨hrun, hanswer⟩ := h.run_step_comm fun a ha =>
      hindependent a ha step List.mem_cons_self
    rw [hrun] at hown hother hhub
    refine ⟨?_, ?_, hhub⟩
    · rw [run_cons, answersIn_cons_of_ne hj hij.symm, hown]
    · rw [run_cons, answersIn_cons_of_eq hj, hother, run_cons, hanswer]

/-- **Clients that work on different keys do not disturb each other.**  Two sessions of a hub in any
state run statements while the clock stands still, and no key is named in both.  In whatever order
the statements of the one come between those of the other, the answers in each session, and the hub
afterwards with its stores, their counters and whom the sessions are known as, are those of the
first list run to its end and then the second. -/
theorem run_interleaved (h : Hub) {i j : Nat} (hij : i ≠ j) {first second : List Statement}
    (hkeys : ∀ a ∈ first, ∀ b ∈ second, ∀ key ∈ a.keys, key ∉ b.keys) {steps : List Step}
    (hsteps : Interleaves (first.map (.statement i)) (second.map (.statement j)) steps) :
    let alone := h.run (first.map (.statement i))
    let later := alone.2.run (second.map (.statement j))
    answersIn i steps (h.run steps).1 = alone.1 ∧
    answersIn j steps (h.run steps).1 = later.1 ∧
    (h.run steps).2 = later.2 := by
  refine hsteps.run_eq hij ?_ ?_ ?_ h
  · intro step hstep
    obtain ⟨a, -, rfl⟩ := List.mem_map.1 hstep
    rfl
  · intro step hstep
    obtain ⟨b, -, rfl⟩ := List.mem_map.1 hstep
    rfl
  · intro step hstep other hother
    obtain ⟨a, ha, rfl⟩ := List.mem_map.1 hstep
    obtain ⟨b, hb, rfl⟩ := List.mem_map.1 hother
    exact independent_statements hij (hkeys a ha b hb)

/-- All keys share one shard, one of them has expired, and both sessions log in. -/
theorem run_interleaved_after_expiry :
    let second := Duration.ofSeconds 1
    let h := ((start (.empty (fun _ => 0) .never .never .zero)).run
      [.register "ada" "lace", .join, .join, .statement 0 (.set "x" "1" (some second)),
        .elapse second]).2
    let mine : List Statement := [.auth "ada" "lace", .get ["x"], .set "y" "2" none]
    let theirs : List Statement := [.set "z" "3" none, .auth "ada" "byron", .delete ["z", "w"]]
    let steps : List Step :=
      [.statement 1 (.set "z" "3" none), .statement 0 (.auth "ada" "lace"),
        .statement 0 (.get ["x"]), .statement 1 (.auth "ada" "byron"),
        .statement 1 (.delete ["z", "w"]), .statement 0 (.set "y" "2" none)]
    0 ≠ 1 ∧ (∀ a ∈ mine, ∀ b ∈ theirs, ∀ key ∈ a.keys, key ∉ b.keys) ∧
    Interleaves (mine.map (.statement 0)) (theirs.map (.statement 1)) steps ∧
    answersIn 0 steps (h.run steps).1 =
      [.response .authenticated, .response (.values [none]), .response .success] ∧
    answersIn 1 steps (h.run steps).1 =
      [.response .success, .response .invalidCredentials, .response .success] ∧
    (h.run steps).2 =
      ((h.run (mine.map (.statement 0))).2.run (theirs.map (.statement 1))).2 := by
  intro second h mine theirs steps
  have hkeys : ∀ a ∈ mine, ∀ b ∈ theirs, ∀ key ∈ a.keys, key ∉ b.keys := by decide
  have hsteps : Interleaves (mine.map (.statement 0)) (theirs.map (.statement 1)) steps :=
    .right _ (.left _ (.left _ (.right _ (.right _ (.left _ .nil)))))
  obtain ⟨hmine, htheirs, hhub⟩ := run_interleaved h Nat.zero_ne_one hkeys hsteps
  refine ⟨Nat.zero_ne_one, hkeys, hsteps, ?_, ?_, hhub⟩
  · rw [hmine]
    decide +kernel
  · rw [htheirs]
    decide +kernel

end ExpiringStore.Hub
