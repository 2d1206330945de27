import ExpiringStore.Proofs.Hub.Session

/-!
# Accounts and data do not interfere

A session may be known as somebody, and every access to the data asks whether that somebody is
allowed to.  No answer ever shows it.  Logins can be deleted from a run, and the data and what is
told of them stay the same; accesses to the data can be deleted, and the accounts, what is told of
them and whom the sessions are known as stay the same (`accounts_and_data_apart`).

Both halves compare two runs step by step.  What the two hubs share, `SameData` and `SameAccounts`,
is kept by a step that both take and by a step that is deleted, and it determines the answers that
are looked at.  `Unnoticed` lists these conditions, and `Unnoticed.run` takes them through the run.
-/

namespace ExpiringStore.Hub

/-! ## Deleting steps -/

/-- `kept` is what remains of `steps` when some of the steps that `p` holds of are deleted. -/
inductive Thinned (p : Step → Bool) : List Step → List Step → Prop
  | nil : Thinned p [] []
  | keep (step : Step) {steps kept : List Step} :
      Thinned p steps kept → Thinned p (step :: steps) (step :: kept)
  | delete {step : Step} (hstep : p step = true) {steps kept : List Step} :
      Thinned p steps kept → Thinned p (step :: steps) kept

/-- The answers to the steps that `seen` holds of. -/
def answersTo (seen : Step → Bool) (steps : List Step) (answers : List Answer) : List Answer :=
  ((steps.zip answers).filter fun r => seen r.1).map Prod.snd

lemma answersTo_cons (seen : Step → Bool) (step : Step) (steps : List Step) (answer : Answer)
    (answers : List Answer) :
    answersTo seen (step :: steps) (answer :: answers) =
      if seen step then answer :: answersTo seen steps answers
      else answersTo seen steps answers := by
  by_cases h : seen step = true <;> simp [answersTo, h]

variable {p seen : Step → Bool} {steps kept : List Step}

/-- A point of the whole run has a corresponding point in the run with the steps deleted. -/
lemma Thinned.exists_append {front rest : List Step} (h : Thinned p (front ++ rest) kept) :
    ∃ before after, kept = before ++ after ∧ Thinned p front before ∧ Thinned p rest after := by
  induction front generalizing kept with
  | nil => exact ⟨[], kept, rfl, .nil, h⟩
  | cons first front ih =>
    rw [List.cons_append] at h
    cases h with
    | keep _ h =>
      obtain ⟨before, after, rfl, hfront, hrest⟩ := ih h
      exact ⟨first :: before, after, rfl, .keep first hfront, hrest⟩
    | delete hfirst h =>
      obtain ⟨before, after, rfl, hfront, hrest⟩ := ih h
      exact ⟨before, after, rfl, .delete hfirst hfront, hrest⟩

/-- What two hubs have in common hides the steps that `p` holds of from whoever sees the answers to
those that `seen` holds of. -/
structure Unnoticed (p seen : Step → Bool) (Same : Hub → Hub → Prop) : Prop where
  unseen : ∀ step, p step = true → seen step = false
  delete : ∀ {h h' step}, Same h h' → p step = true → Same (h.step step).2 h'
  keep : ∀ {h h'} step, Same h h' → Same (h.step step).2 (h'.step step).2
  answer_eq : ∀ {h h' step}, Same h h' → seen step = true → (h.step step).1 = (h'.step step).1

lemma Unnoticed.run {Same : Hub → Hub → Prop} (hsame : Unnoticed p seen Same)
    (hsteps : Thinned p steps kept) {h h' : Hub} (hh : Same h h') :
    Same (h.run steps).2 (h'.run kept).2 ∧
      answersTo seen steps (h.run steps).1 = answersTo seen kept (h'.run kept).1 := by
  induction hsteps generalizing h h' with
  | nil => exact ⟨hh, rfl⟩
  | keep step _ ih =>
    obtain ⟨hrest, hanswers⟩ := ih (hsame.keep step hh)
    refine ⟨hrest, ?_⟩
    rw [run_cons, run_cons, answersTo_cons, answersTo_cons, hanswers]
    split_ifs with hseen
    · rw [hsame.answer_eq hh hseen]
    · rfl
  | @delete step hstep _ _ _ ih =>
    obtain ⟨hrest, hanswers⟩ := ih (hsame.delete hh hstep)
    refine ⟨hrest, ?_⟩
    rw [run_cons, answersTo_cons, hsame.unseen step hstep, hanswers]
    rfl

/-- Steps in order keep what each of them keeps. -/
private lemma same_run {Same : Hub → Hub → Prop} {steps : List Step}
    (hstep : ∀ step ∈ steps, ∀ {h h'}, Same h h' → Same (h.step step).2 (h'.step step).2)
    {h h' : Hub} (hh : Same h h') : Same (h.run steps).2 (h'.run steps).2 := by
  induction steps generalizing h h' with
  | nil => exact hh
  | cons first steps ih =>
    exact ih (fun step hmem => hstep step (List.mem_cons_of_mem first hmem))
      (hstep first List.mem_cons_self hh)

/-- A request keeps what each statement keeps. -/
private lemma same_request {Same : Hub → Hub → Prop} {index : Nat}
    (hstatement : ∀ statement, ∀ {h h'}, Same h h' →
      Same (h.step (.statement index statement)).2 (h'.step (.statement index statement)).2)
    (text : String) {h h' : Hub} (hh : Same h h') :
    Same (h.step (.request index text)).2 (h'.step (.request index text)).2 := by
  rw [← run_parts_step, ← run_parts_step]
  refine same_run (fun step hmem => ?_) hh
  rw [Step.parts] at hmem
  split at hmem
  · obtain ⟨statement, -, rfl⟩ := List.mem_map.1 hmem
    exact hstatement statement
  · cases hmem

/-! ## Sessions and statements -/

/-- Whether the session of a seat is there. -/
def isTaken : Seat → Bool
  | .taken _ => true
  | .vacated => false

/-- Which sessions are there. -/
def taken (h : Hub) : List Bool := h.seats.map isTaken

lemma isSome_session? (h : Hub) (index : Nat) :
    (h.session? index).isSome = h.taken[index]?.getD false := by
  rw [session?, taken, List.getElem?_map]
  rcases h.seats[index]? with _ | _ | _ <;> rfl

lemma leave_eq (h : Hub) (index : Nat) :
    h.leave index =
      if (h.session? index).isSome then (true, { h with seats := h.seats.set index .vacated })
      else (false, h) := by
  rw [leave]
  cases h.session? index <;> rfl

lemma answer_step_statement (h : Hub) (index : Nat) (statement : Statement) :
    (h.step (.statement index statement)).1 =
      if (h.session? index).isSome then .response (statement.response h.stores) else .absent := by
  cases hs : h.session? index with
  | none => rw [step_statement_absent hs]; rfl
  | some s => rw [step_statement_eq hs]; rfl

lemma stores_step_statement (h : Hub) (index : Nat) (statement : Statement) :
    (h.step (.statement index statement)).2.stores =
      if (h.session? index).isSome then h.stores.after statement else h.stores := by
  cases hs : h.session? index with
  | none => rw [step_statement_absent hs]; rfl
  | some s =>
    rw [step_statement_eq hs, stores_withSession, Session.after, stores_of_session? hs]
    rfl

lemma now_step_statement (h : Hub) (index : Nat) (statement : Statement) :
    (h.step (.statement index statement)).2.stores.now = h.stores.now := by
  rw [stores_step_statement]
  split_ifs <;> rfl

/-- The seat of a session that may have become known as somebody. -/
def becoming (known : Option Identity) : Seat → Seat
  | .taken identity => .taken (known.or identity)
  | .vacated => .vacated

lemma becoming_none : becoming none = id := by
  funext seat
  cases seat <;> rfl

lemma seats_step_statement (h : Hub) (index : Nat) (statement : Statement) :
    (h.step (.statement index statement)).2.seats =
      h.seats.modify index (becoming ((statement.known h.stores).map Account.identity)) := by
  rw [List.modify_eq_set_getElem?]
  cases hs : h.session? index with
  | none =>
    rw [step_statement_absent hs]
    rcases hseat : h.seats[index]? with _ | _ | _
    · rfl
    · rw [session?_of_taken hseat] at hs
      cases hs
    · obtain ⟨hindex, hvacated⟩ := List.getElem?_eq_some_iff.1 hseat
      have hself := List.set_getElem_self hindex
      rw [hvacated] at hself
      exact hself.symm
  | some s =>
    rw [step_statement_eq hs, taken_of_session? hs, ← stores_of_session? hs]
    rfl

/-- A statement leaves its session where it is. -/
lemma taken_step_statement (h : Hub) (index : Nat) (statement : Statement) :
    (h.step (.statement index statement)).2.taken = h.taken := by
  rw [taken, seats_step_statement, taken]
  refine List.ext_getElem? fun i => ?_
  rw [List.getElem?_map, List.getElem?_modify, List.getElem?_map]
  rcases h.seats[i]? with _ | _ | _
  · rfl
  · simp only [Option.map_eq_map, Option.map_some]
    split_ifs <;> rfl
  · simp only [Option.map_eq_map, Option.map_some]
    split_ifs <;> rfl

/-! ## What concerns the data -/

/-- Whether a step is an access to the data. -/
def Step.onData : Step → Bool
  | .statement _ (.auth ..) => false
  | .statement .. => true
  | .data _ => true
  | _ => false

/-- Whether a step is a login, or a change to the accounts. -/
def Step.onAccounts : Step → Bool
  | .statement _ (.auth ..) => true
  | .register .. => true
  | .unregister _ => true
  | _ => false

/-- No step is both. -/
lemma Step.onData_eq_false {step : Step} (h : step.onAccounts = true) : step.onData = false := by
  cases step with
  | statement index statement =>
    cases statement with
    | auth username password => rfl
    | _ => cases h
  | register username password => rfl
  | unregister username => rfl
  | _ => cases h

variable {h h' : Hub}

/-- The hubs have the same data, read the same clock, and the same sessions are there. -/
structure SameData (h h' : Hub) : Prop where
  data_eq : h.stores.data = h'.stores.data
  now_eq : h.stores.now = h'.stores.now
  taken_eq : h.taken = h'.taken

namespace SameData

lemma refl (h : Hub) : SameData h h := ⟨rfl, rfl, rfl⟩

lemma isSome_session?_eq (hh : SameData h h') (index : Nat) :
    (h.session? index).isSome = (h'.session? index).isSome := by
  rw [isSome_session?, isSome_session?, hh.taken_eq]

lemma statement (index : Nat) (statement : Statement) (hh : SameData h h') :
    SameData (h.step (.statement index statement)).2
      (h'.step (.statement index statement)).2 := by
  refine ⟨?_, ?_, ?_⟩
  · rw [stores_step_statement, stores_step_statement, hh.isSome_session?_eq]
    split_ifs
    · simp only [Stores.after, hh.data_eq, hh.now_eq]
    · exact hh.data_eq
  · rw [now_step_statement, now_step_statement, hh.now_eq]
  · rw [taken_step_statement, taken_step_statement, hh.taken_eq]

/-- Neither a login nor a change to the accounts shows. -/
lemma onAccounts (hh : SameData h h') {step : Step} (hstep : step.onAccounts = true) :
    SameData (h.step step).2 h' := by
  cases step with
  | statement index statement =>
    cases statement with
    | auth username password =>
      refine ⟨?_, ?_, ?_⟩
      · rw [stores_step_statement, ← hh.data_eq]
        split_ifs <;> rfl
      · rw [now_step_statement, hh.now_eq]
      · rw [taken_step_statement, hh.taken_eq]
    | _ => cases hstep
  | register username password => exact ⟨hh.data_eq, hh.now_eq, hh.taken_eq⟩
  | unregister username => exact ⟨hh.data_eq, hh.now_eq, hh.taken_eq⟩
  | _ => cases hstep

lemma leave (hh : SameData h h') (index : Nat) :
    SameData (h.leave index).2 (h'.leave index).2 := by
  rw [leave_eq, leave_eq, hh.isSome_session?_eq]
  split_ifs
  · refine ⟨hh.data_eq, hh.now_eq, ?_⟩
    have htaken := hh.taken_eq
    simp only [taken, List.map_set] at htaken ⊢
    rw [htaken]
  · exact hh

lemma step (step : Step) (hh : SameData h h') : SameData (h.step step).2 (h'.step step).2 := by
  cases step with
  | join =>
    refine ⟨hh.data_eq, hh.now_eq, ?_⟩
    have htaken := hh.taken_eq
    simp only [Hub.step, join, taken, List.map_append] at htaken ⊢
    rw [htaken]
  | leave index => exact hh.leave index
  | register username password => exact ⟨hh.data_eq, hh.now_eq, hh.taken_eq⟩
  | unregister username => exact ⟨hh.data_eq, hh.now_eq, hh.taken_eq⟩
  | request index text =>
    exact same_request (fun statement _ _ hh => hh.statement index statement) text hh
  | statement index statement => exact hh.statement index statement
  | elapse d =>
    refine ⟨hh.data_eq, ?_, hh.taken_eq⟩
    simp only [Hub.step, Stores.elapse, hh.now_eq]
  | data operation =>
    refine ⟨?_, hh.now_eq, hh.taken_eq⟩
    simp only [Hub.step, hh.data_eq, hh.now_eq]

/-- What is told of the data comes from the data and the clock alone. -/
lemma answer_eq (hh : SameData h h') {step : Step} (hstep : step.onData = true) :
    (h.step step).1 = (h'.step step).1 := by
  cases step with
  | statement index statement =>
    rw [answer_step_statement, answer_step_statement, hh.isSome_session?_eq]
    have hresponse : statement.response h.stores = statement.response h'.stores := by
      cases statement with
      | set key value ttl => rfl
      | get keys =>
        have hvalue : h.stores.value = h'.stores.value := by
          funext key
          rw [Stores.value, hh.data_eq, hh.now_eq, Stores.value]
        rw [Statement.response, hvalue, Statement.response]
      | delete keys => rfl
      | auth username password => cases hstep
    rw [hresponse]
  | data operation => simp only [Hub.step, hh.data_eq, hh.now_eq]
  | _ => cases hstep

lemma unnoticed : Unnoticed Step.onAccounts Step.onData SameData where
  unseen _ hstep := Step.onData_eq_false hstep
  delete hh hstep := hh.onAccounts hstep
  keep step hh := hh.step step
  answer_eq hh hstep := hh.answer_eq hstep

end SameData

/-! ## What concerns the accounts -/

/-- The hubs have the same accounts, read the same clock, and have the same sessions, each of them
known as the same user. -/
structure SameAccounts (h h' : Hub) : Prop where
  users_eq : h.stores.users = h'.stores.users
  now_eq : h.stores.now = h'.stores.now
  seats_eq : h.seats = h'.seats

namespace SameAccounts

lemma refl (h : Hub) : SameAccounts h h := ⟨rfl, rfl, rfl⟩

lemma isSome_session?_eq (hh : SameAccounts h h') (index : Nat) :
    (h.session? index).isSome = (h'.session? index).isSome := by
  rw [isSome_session?, isSome_session?, taken, hh.seats_eq, taken]

lemma known_eq (hh : SameAccounts h h') (statement : Statement) :
    statement.known h.stores = statement.known h'.stores := by
  cases statement with
  | auth username password =>
    rw [Statement.known, Stores.account, hh.users_eq, hh.now_eq, Statement.known, Stores.account]
  | _ => rfl

lemma statement (index : Nat) (statement : Statement) (hh : SameAccounts h h') :
    SameAccounts (h.step (.statement index statement)).2
      (h'.step (.statement index statement)).2 := by
  refine ⟨?_, ?_, ?_⟩
  · rw [stores_step_statement, stores_step_statement, hh.isSome_session?_eq]
    split_ifs
    · simp only [Stores.after, hh.users_eq, hh.now_eq]
    · exact hh.users_eq
  · rw [now_step_statement, now_step_statement, hh.now_eq]
  · rw [seats_step_statement, seats_step_statement, hh.seats_eq, hh.known_eq]

/-- A statement that is no login does not show. -/
lemma statement_left (hh : SameAccounts h h') (index : Nat) {statement : Statement}
    (hstatement : (Step.statement index statement).onData = true) :
    SameAccounts (h.step (.statement index statement)).2 h' := by
  have hnone : statement.known h.stores = none ∧ statement.usernames = [] := by
    cases statement with
    | auth username password => cases hstatement
    | _ => exact ⟨rfl, rfl⟩
  obtain ⟨hknown, husernames⟩ := hnone
  have husers : (h.stores.after statement).users = h.stores.users := by
    rw [Stores.after, husernames]
    rfl
  refine ⟨?_, ?_, ?_⟩
  · rw [stores_step_statement, ← hh.users_eq]
    split_ifs
    · exact husers
    · rfl
  · rw [now_step_statement, hh.now_eq]
  · rw [seats_step_statement, hknown, Option.map_none, becoming_none, List.modify_id, hh.seats_eq]

/-- An access to the data does not show. -/
lemma onData (hh : SameAccounts h h') {step : Step} (hstep : step.onData = true) :
    SameAccounts (h.step step).2 h' := by
  cases step with
  | statement index statement => exact hh.statement_left index hstep
  | data operation => exact ⟨hh.users_eq, hh.now_eq, hh.seats_eq⟩
  | _ => cases hstep

lemma step (step : Step) (hh : SameAccounts h h') :
    SameAccounts (h.step step).2 (h'.step step).2 := by
  cases step with
  | join => exact ⟨hh.users_eq, hh.now_eq, congrArg (· ++ [Seat.taken none]) hh.seats_eq⟩
  | leave index =>
    simp only [Hub.step, leave_eq, hh.isSome_session?_eq]
    split_ifs
    · exact ⟨hh.users_eq, hh.now_eq, congrArg (·.set index .vacated) hh.seats_eq⟩
    · exact hh
  | register username password =>
    refine ⟨?_, hh.now_eq, hh.seats_eq⟩
    simp only [Hub.step, Stores.register, hh.users_eq, hh.now_eq]
  | unregister username =>
    refine ⟨?_, hh.now_eq, hh.seats_eq⟩
    simp only [Hub.step, Stores.unregister, hh.users_eq]
  | request index text =>
    exact same_request (fun statement _ _ hh => hh.statement index statement) text hh
  | statement index statement => exact hh.statement index statement
  | elapse d =>
    refine ⟨hh.users_eq, ?_, hh.seats_eq⟩
    simp only [Hub.step, Stores.elapse, hh.now_eq]
  | data operation => exact ⟨hh.users_eq, hh.now_eq, hh.seats_eq⟩

/-- What is told of the accounts comes from the accounts and the clock alone. -/
lemma answer_eq (hh : SameAccounts h h') {step : Step} (hstep : step.onAccounts = true) :
    (h.step step).1 = (h'.step step).1 := by
  cases step with
  | statement index statement =>
    rw [answer_step_statement, answer_step_statement, hh.isSome_session?_eq]
    cases statement with
    | auth username password => rw [Statement.response, hh.known_eq, Statement.response]
    | _ => cases hstep
  | register username password => rfl
  | unregister username => simp only [Hub.step, Stores.unregister, hh.users_eq]
  | _ => cases hstep

lemma unnoticed : Unnoticed Step.onData Step.onAccounts SameAccounts where
  unseen _ hstep := Bool.eq_false_iff.2 fun haccounts =>
    Bool.eq_false_iff.1 (Step.onData_eq_false haccounts) hstep
  delete hh hstep := hh.onData hstep
  keep step hh := hh.step step
  answer_eq hh hstep := hh.answer_eq hstep

end SameAccounts

/-! ## Runs -/

/-- At every point of a run, as at its end, nothing shows of the steps that were deleted. -/
lemma Unnoticed.exists_run {Same : Hub → Hub → Prop} (hsame : Unnoticed p seen Same)
    (hsteps : Thinned p steps kept) (hh : Same h h) {front rest : List Step}
    (hfront : steps = front ++ rest) :
    ∃ before after, kept = before ++ after ∧ Thinned p front before ∧ Thinned p rest after ∧
      Same (h.run front).2 (h.run before).2 := by
  rw [hfront] at hsteps
  obtain ⟨before, after, hkept, hbefore, hafter⟩ := hsteps.exists_append
  exact ⟨before, after, hkept, hbefore, hafter, (hsame.run hbefore hh).1⟩

/-- **Accounts and data do not interfere.**  Sessions of a hub in any state run statements, and
anything else happens there, in any order and with any time in between.  A request is nothing but
its statements (`run_parts`).

* Some of the logins, and of the changes to the accounts, are deleted.  The remaining accesses to
  the data, and above all the statements SET, GET and DEL, are answered the same, and at every point
  of the run the data with its counters is the same as at the corresponding point without them.
* Some of the accesses to the data are deleted.  The remaining logins are answered the same, and at
  every point the accounts with their counters are the same, and so is whom each session is known
  as. -/
theorem accounts_and_data_apart (h : Hub) {steps kept : List Step} :
    (Thinned Step.onAccounts steps kept →
      answersTo Step.onData kept (h.run kept).1 = answersTo Step.onData steps (h.run steps).1 ∧
      ∀ front rest, steps = front ++ rest → ∃ before after, kept = before ++ after ∧
        Thinned Step.onAccounts front before ∧ Thinned Step.onAccounts rest after ∧
        (h.run before).2.stores.data = (h.run front).2.stores.data) ∧
    (Thinned Step.onData steps kept →
      answersTo Step.onAccounts kept (h.run kept).1 =
        answersTo Step.onAccounts steps (h.run steps).1 ∧
      ∀ front rest, steps = front ++ rest → ∃ before after, kept = before ++ after ∧
        Thinned Step.onData front before ∧ Thinned Step.onData rest after ∧
        (h.run before).2.stores.users = (h.run front).2.stores.users ∧
        (h.run before).2.seats = (h.run front).2.seats) := by
  refine ⟨fun hsteps => ⟨?_, fun front rest hfront => ?_⟩,
    fun hsteps => ⟨?_, fun front rest hfront => ?_⟩⟩
  · exact (SameData.unnoticed.run hsteps (.refl h)).2.symm
  · obtain ⟨before, after, hkept, hbefore, hafter, hsame⟩ :=
      SameData.unnoticed.exists_run hsteps (.refl h) hfront
    exact ⟨before, after, hkept, hbefore, hafter, hsame.data_eq.symm⟩
  · exact (SameAccounts.unnoticed.run hsteps (.refl h)).2.symm
  · obtain ⟨before, after, hkept, hbefore, hafter, hsame⟩ :=
      SameAccounts.unnoticed.exists_run hsteps (.refl h) hfront
    exact ⟨before, after, hkept, hbefore, hafter, hsame.users_eq.symm, hsame.seats_eq.symm⟩

/-- Two sessions log in, one of them at the second attempt, around a value that expires.  What is
answered in the shorter runs is what is answered in the whole one. -/
theorem accounts_and_data_apart_around_expiry :
    let second := Duration.ofSeconds 1
    let h := ((start (.empty (fun _ => 0) .never .never .zero)).run
      [.register "ada" "lace", .join, .join]).2
    let steps : List Step :=
      [.statement 0 (.auth "ada" "lace"), .statement 0 (.set "x" "1" (some second)),
        .statement 1 (.auth "ada" "byron"), .statement 1 (.get ["x"]), .elapse second,
        .statement 1 (.auth "ada" "lace"), .statement 1 (.get ["x"]),
        .statement 0 (.delete ["x"])]
    let withoutLogins : List Step :=
      [.statement 0 (.set "x" "1" (some second)), .statement 1 (.auth "ada" "byron"),
        .statement 1 (.get ["x"]), .elapse second, .statement 1 (.get ["x"]),
        .statement 0 (.delete ["x"])]
    let withoutData : List Step :=
      [.statement 0 (.auth "ada" "lace"), .statement 1 (.auth "ada" "byron"), .elapse second,
        .statement 1 (.auth "ada" "lace"), .statement 1 (.get ["x"])]
    Thinned Step.onAccounts steps withoutLogins ∧ Thinned Step.onData steps withoutData ∧
    answersTo Step.onData withoutLogins (h.run withoutLogins).1 =
      [.response .success, .response (.values [some (Utf8.encode "1")]),
        .response (.values [none]), .response .success] ∧
    answersTo Step.onAccounts withoutData (h.run withoutData).1 =
      [.response .authenticated, .response .invalidCredentials, .response .authenticated] := by
  intro second h steps withoutLogins withoutData
  have hlogins : Thinned Step.onAccounts steps withoutLogins :=
    .delete rfl (.keep _ (.keep _ (.keep _ (.keep _ (.delete rfl (.keep _ (.keep _ .nil)))))))
  have hdata : Thinned Step.onData steps withoutData :=
    .keep _ (.delete rfl (.keep _ (.delete rfl (.keep _ (.keep _ (.keep _ (.delete rfl .nil)))))))
  refine ⟨hlogins, hdata, ?_, ?_⟩
  · rw [((accounts_and_data_apart h).1 hlogins).1]
    decide +kernel
  · rw [((accounts_and_data_apart h).2 hdata).1]
    decide +kernel

end ExpiringStore.Hub
