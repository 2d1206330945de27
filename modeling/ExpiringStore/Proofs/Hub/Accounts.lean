import ExpiringStore.Proofs.Access.Digest
import ExpiringStore.Proofs.Hub.Session

/-!
# Who is known in which session

Accounts come and go while sessions log in, and both can be read off the history of a hub.  The
account of a user is the one that was registered last, unless it was removed since (`passwordOf`);
a session is known as the user of its own last login that succeeded (`lastLogin`), whatever has
become of that account.

There are two invariants.  `AccountsAre`: accounts are stored without a deadline, so no default
lifetime and no read can take one away, and each is stored under its own name, so that the name
given in a login is the name that the session is known by.  `SeatsAre`: a session is known as the
history tells, and no session has logged in that was not opened.  One step keeps both, and
`Accounted`, which says what they come to, follows (`accounted_run`).  Requests are dealt with by
their parts.
-/

namespace ExpiringStore

/-- Reads do not take away what has not expired. -/
lemma Store.find?_getAll_of_live {α : Type u} {s : Store α} {now : Instant} {key : Bytes}
    (hlive : (s.find? key).filter (fun e => !e.expired now) = s.find? key) (keys : List Bytes) :
    (s.getAll now keys).find? key = s.find? key := by
  induction keys generalizing s with
  | nil => rfl
  | cons read keys ih =>
    have hget : (s.get now read).2.find? key = s.find? key := by
      rw [find?_get]
      by_cases hkey : key = read
      · rw [if_pos hkey, ← hkey, hlive]
      · rw [if_neg hkey]
    exact (ih (by rw [hget, hlive])).trans hget

namespace Hub

/-! ## What the history tells -/

/-- The latest thing that a history tells. -/
def latest? {β : Type u} {γ : Type v} (tells : β → Option γ) (history : List β) : Option γ :=
  history.reverse.findSome? tells

lemma latest?_concat {β : Type u} {γ : Type v} (tells : β → Option γ) (history : List β) (r : β) :
    latest? tells (history ++ [r]) = (tells r).or (latest? tells history) := by
  rw [latest?, List.reverse_append, List.reverse_singleton, List.singleton_append,
    List.findSome?_cons, ← latest?]
  cases tells r <;> rfl

/-- What a step tells about the password of a user: a new one, or that there is none any more. -/
def Step.password? (username : String) : Step → Option (Option String)
  | .register name password => if name = username then some (some password) else none
  | .unregister name => if name = username then some none else none
  | _ => none

/-- The password that a user was registered with last, unless the account was removed since. -/
def passwordOf (log : List (Step × Answer)) (username : String) : Option String :=
  (latest? (fun r => r.1.password? username) log).join

/-- The user that a session has become known as. -/
def login (index : Nat) : Step × Answer → Option String
  | (.statement i (.auth username _), .response .authenticated) =>
    if i = index then some username else none
  | _ => none

/-- The user of the last login of a session that succeeded. -/
def lastLogin (index : Nat) (log : List (Step × Answer)) : Option String :=
  latest? (login index) log

lemma passwordOf_concat (log : List (Step × Answer)) (r : Step × Answer) (username : String) :
    passwordOf (log ++ [r]) username =
      (r.1.password? username).getD (passwordOf log username) := by
  rw [passwordOf, latest?_concat, passwordOf]
  cases r.1.password? username <;> rfl

lemma login_eq_none {index : Nat} {step : Step} (h : ∀ statement, step ≠ .statement index statement)
    (answer : Answer) : login index (step, answer) = none := by
  unfold login
  split
  · rename_i i username password heq
    injection heq with hstep
    exact if_neg fun hi => h _ (by rw [hstep, hi])
  · rfl

/-! ## Accounts -/

/-- The account of a user as it is stored. -/
def filed (username password : String) : Entry Account :=
  ⟨.create username password .admin, none⟩

/-- The accounts are those of the history. -/
def AccountsAre (h : Hub) (log : List (Step × Answer)) : Prop :=
  ∀ username, h.stores.users.find? (Utf8.encode username) =
    (passwordOf log username).map (filed username)

/-- Whether a step is a request. -/
def Step.isRequest : Step → Bool
  | .request .. => true
  | _ => false

variable {h : Hub} {log : List (Step × Answer)}

lemma AccountsAre.lasting (haccounts : AccountsAre h log) (username : String) (now : Instant) :
    (h.stores.users.find? (Utf8.encode username)).filter (fun e => !e.expired now) =
      h.stores.users.find? (Utf8.encode username) := by
  rw [haccounts username]
  cases passwordOf log username with
  | none => rfl
  | some password => exact Option.filter_some_pos rfl

lemma AccountsAre.account_eq (haccounts : AccountsAre h log) (username : String) :
    h.stores.account username =
      (passwordOf log username).map (Account.create username · .admin) := by
  rw [Stores.account, Store.visible, haccounts.lasting, haccounts username, Option.map_map]
  rfl

lemma AccountsAre.identity_eq (haccounts : AccountsAre h log) {username : String} {a : Account}
    (ha : h.stores.account username = some a) : a.identity = ⟨username, .admin⟩ := by
  rw [haccounts.account_eq, Option.map_eq_some_iff] at ha
  obtain ⟨password, -, rfl⟩ := ha
  rfl

/-- **What a step does to the accounts.** -/
lemma AccountsAre.step (haccounts : AccountsAre h log) {act : Step} (hact : act.isRequest = false) :
    AccountsAre (h.step act).2 (log ++ [(act, (h.step act).1)]) := by
  intro username
  rw [passwordOf_concat]
  cases act with
  | register name password =>
    have hset : (h.step (.register name password)).2.stores.users.find? (Utf8.encode username) =
        if Utf8.encode username = Utf8.encode name then some (filed name password)
        else h.stores.users.find? (Utf8.encode username) :=
      Store.find?_set ..
    rw [hset, haccounts username, Step.password?]
    by_cases hname : name = username
    · rw [if_pos (by rw [hname]), if_pos hname, hname]
      rfl
    · rw [if_neg fun he => hname (Utf8.encode_injective he).symm, if_neg hname]
      rfl
  | unregister name =>
    have hdelete : (h.step (.unregister name)).2.stores.users.find? (Utf8.encode username) =
        if Utf8.encode username = Utf8.encode name then none
        else h.stores.users.find? (Utf8.encode username) :=
      Store.find?_delete ..
    rw [hdelete, haccounts username, Step.password?]
    by_cases hname : name = username
    · rw [if_pos (by rw [hname]), if_pos hname]
      rfl
    · rw [if_neg fun he => hname (Utf8.encode_injective he).symm, if_neg hname]
      rfl
  | statement index statement =>
    cases hs : h.session? index with
    | none =>
      rw [step_statement_absent hs]
      exact haccounts username
    | some s =>
      rw [step_statement_eq hs, Session.after, stores_of_session? hs]
      have hread := Store.find?_getAll_of_live (haccounts.lasting username h.stores.now)
        (statement.usernames.map Utf8.encode)
      exact hread.trans (haccounts username)
  | leave index =>
    have hstores : (h.step (.leave index)).2.stores = h.stores := by
      simp only [Hub.step, leave]
      cases h.session? index <;> rfl
    rw [hstores]
    exact haccounts username
  | request index text => contradiction
  | join => exact haccounts username
  | elapse d => exact haccounts username
  | data operation => exact haccounts username

/-! ## Sessions -/

/-- Sessions are known as the history tells, and none has logged in that was not opened. -/
structure SeatsAre (h : Hub) (log : List (Step × Answer)) : Prop where
  identity_eq : ∀ index identity, h.seats[index]? = some (.taken identity) →
    identity = (lastLogin index log).map (⟨·, .admin⟩)
  unopened : ∀ index, h.seats.length ≤ index → lastLogin index log = none

lemma lastLogin_concat (index : Nat) (log : List (Step × Answer)) (r : Step × Answer) :
    lastLogin index (log ++ [r]) = (login index r).or (lastLogin index log) :=
  latest?_concat ..

/-- The response to a statement tells whom the session has become known as. -/
lemma login_response (haccounts : AccountsAre h log) (index : Nat) (statement : Statement) :
    (login index (.statement index statement, .response (statement.response h.stores))).map
        (fun username => (⟨username, .admin⟩ : Identity)) =
      (statement.known h.stores).map Account.identity := by
  cases statement with
  | auth username password =>
    rw [Statement.response, Statement.known]
    cases haccount : h.stores.account username with
    | none => rfl
    | some a =>
      rw [Option.filter_some]
      cases a.accepts password with
      | false => rfl
      | true =>
        have hidentity := haccounts.identity_eq haccount
        simp [login, hidentity]
  | set key value ttl => rfl
  | get keys => rfl
  | delete keys => rfl

/-- A step that does not happen in a session leaves it as it is, or has just opened it. -/
lemma seats_step_of_ne {index : Nat} {identity : Option Identity} {act : Step}
    (hother : act.session? ≠ some index)
    (hseat : (h.step act).2.seats[index]? = some (.taken identity)) :
    h.seats[index]? = some (.taken identity) ∨ (h.seats.length ≤ index ∧ identity = none) := by
  cases act with
  | join =>
    by_cases hindex : index < h.seats.length
    · exact .inl ((List.getElem?_append_left hindex).symm.trans hseat)
    · have hle : h.seats.length ≤ index := Nat.le_of_not_lt hindex
      have hopened : [Seat.taken none][index - h.seats.length]? = some (.taken identity) :=
        (List.getElem?_append_right hle).symm.trans hseat
      obtain ⟨_, hget⟩ := List.getElem?_eq_some_iff.1 hopened
      rw [List.getElem_singleton] at hget
      injection hget with hnone
      exact .inr ⟨hle, hnone.symm⟩
  | leave other =>
    have hne : index ≠ other := fun he => hother (by rw [he, Step.session?])
    refine .inl (Eq.trans ?_ hseat)
    simp only [Hub.step, leave]
    cases h.session? other with
    | none => rfl
    | some s => exact (List.getElem?_set_ne hne.symm).symm
  | request other text =>
    have hne : index ≠ other := fun he => hother (by rw [he, Step.session?])
    have hseats : (h.runRequest other text).2.seats[index]? = h.seats[index]? :=
      h.seats_within_of_ne hne _
    refine .inl (hseats.symm.trans (Eq.trans ?_ hseat))
    simp only [Hub.step]
    rcases h.runRequest other text with ⟨_ | _, _⟩ <;> rfl
  | statement other statement =>
    have hne : index ≠ other := fun he => hother (by rw [he, Step.session?])
    have hseats : (h.execute other statement).2.seats[index]? = h.seats[index]? :=
      h.seats_within_of_ne hne _
    refine .inl (hseats.symm.trans (Eq.trans ?_ hseat))
    simp only [Hub.step]
    rcases h.execute other statement with ⟨_ | _, _⟩ <;> rfl
  | register name password => exact .inl hseat
  | unregister name => exact .inl hseat
  | elapse d => exact .inl hseat
  | data operation => exact .inl hseat

lemma length_seats_le_step {act : Step} (hact : act.isRequest = false) :
    h.seats.length ≤ (h.step act).2.seats.length := by
  cases act with
  | join =>
    have hlength : (h.seats ++ [Seat.taken none]).length = h.seats.length + 1 :=
      List.length_append
    exact hlength ▸ Nat.le_succ _
  | leave index =>
    simp only [Hub.step, leave]
    cases h.session? index with
    | none => exact Nat.le_refl _
    | some s => exact List.length_set.ge
  | statement index statement =>
    cases hs : h.session? index with
    | none => rw [step_statement_absent hs]
    | some s =>
      rw [step_statement hs]
      exact List.length_set.ge
  | request index text => contradiction
  | register name password => exact Nat.le_refl _
  | unregister name => exact Nat.le_refl _
  | elapse d => exact Nat.le_refl _
  | data operation => exact Nat.le_refl _

/-- What a step does to the session in which it happens, if that is still there afterwards. -/
lemma seats_step_own (haccounts : AccountsAre h log) {index : Nat} {identity : Option Identity}
    {act : Step} (hact : act.isRequest = false) (hown : act.session? = some index)
    (hseat : (h.step act).2.seats[index]? = some (.taken identity)) :
    ∃ before, h.seats[index]? = some (.taken before) ∧
      identity = ((login index (act, (h.step act).1)).map (⟨·, .admin⟩)).or before := by
  cases act with
  | leave other =>
    injection hown with hindex
    subst hindex
    exfalso
    cases hs : h.session? other with
    | none =>
      simp only [Hub.step, leave, hs] at hseat
      rw [session?_of_taken hseat] at hs
      contradiction
    | some s =>
      have hlt := (List.getElem?_eq_some_iff.1 (taken_of_session? hs)).1
      simp [Hub.step, leave, hs, hlt] at hseat
  | statement other statement =>
    injection hown with hindex
    subst hindex
    cases hs : h.session? other with
    | none =>
      rw [step_statement_absent hs] at hseat
      rw [session?_of_taken hseat] at hs
      contradiction
    | some s =>
      have htaken := taken_of_session? (session?_withSession h other hs (s.after statement))
      rw [step_statement_eq hs] at hseat ⊢
      refine ⟨s.identity, taken_of_session? hs, ?_⟩
      rw [login_response haccounts, ← stores_of_session? hs]
      rw [htaken] at hseat
      injection hseat with hseat
      injection hseat with hseat
      exact hseat.symm
  | _ => contradiction

/-- **What a step does to the sessions.** -/
lemma SeatsAre.step (hseats : SeatsAre h log) (haccounts : AccountsAre h log) {act : Step}
    (hact : act.isRequest = false) : SeatsAre (h.step act).2 (log ++ [(act, (h.step act).1)]) := by
  refine ⟨fun index identity hseat => ?_, fun index hindex => ?_⟩
  · rw [lastLogin_concat, Option.map_or]
    by_cases hown : act.session? = some index
    · obtain ⟨before, hbefore, rfl⟩ := seats_step_own haccounts hact hown hseat
      rw [hseats.identity_eq index before hbefore]
    · have hlogin : login index (act, (h.step act).1) = none :=
        login_eq_none (fun statement he => hown (by rw [he, Step.session?])) _
      rw [hlogin, Option.map_none, Option.none_or]
      rcases seats_step_of_ne hown hseat with hsame | ⟨hnew, rfl⟩
      · exact hseats.identity_eq index identity hsame
      · rw [hseats.unopened index hnew]
        rfl
  · have hbefore : h.seats.length ≤ index := (length_seats_le_step hact).trans hindex
    rw [lastLogin_concat, hseats.unopened index hbefore, Option.or_none]
    by_cases hown : ∃ statement, act = .statement index statement
    · obtain ⟨statement, rfl⟩ := hown
      have habsent : h.session? index = none := by
        rw [session?, List.getElem?_eq_none hbefore]
      rw [step_statement_absent habsent]
      cases statement <;> rfl
    · exact login_eq_none (fun statement he => hown ⟨statement, he⟩) _

/-! ## Runs -/

/-- **What a run does to accounts and sessions.** -/
lemma accountsAre_seatsAre_run (haccounts : AccountsAre h log) (hseats : SeatsAre h log)
    {acts : List Step} (hacts : ∀ act ∈ acts, act.isRequest = false) :
    AccountsAre (h.run acts).2 (log ++ acts.zip (h.run acts).1) ∧
      SeatsAre (h.run acts).2 (log ++ acts.zip (h.run acts).1) := by
  induction acts generalizing h log with
  | nil =>
    rw [List.zip_nil_left, List.append_nil]
    exact ⟨haccounts, hseats⟩
  | cons act acts ih =>
    have hact : act.isRequest = false := hacts act List.mem_cons_self
    have hrest := ih (haccounts.step hact) (hseats.step haccounts hact) fun a ha =>
      hacts a (List.mem_cons_of_mem act ha)
    rw [List.append_assoc, List.singleton_append] at hrest
    exact hrest

lemma isRequest_of_mem_parts {act step : Step} (h : act ∈ step.parts) : act.isRequest = false := by
  cases step with
  | request index text =>
    rw [Step.parts] at h
    split at h
    · obtain ⟨statement, -, rfl⟩ := List.mem_map.1 h
      rfl
    · contradiction
  | _ =>
    rw [List.mem_singleton.1 h]
    rfl

/-- The accounts and sessions of a hub as its history has them, each act of it with its answer. -/
structure Accounted (h : Hub) (log : List (Step × Answer)) : Prop where
  /-- Every account is stored under its own name, and is the one registered last. -/
  account_eq : ∀ username,
    h.stores.account username = (passwordOf log username).map (Account.create username · .admin)
  /-- A login succeeds if the user is registered with a password of the same digest. -/
  authenticated_iff : ∀ index identity username password,
    h.seats[index]? = some (.taken identity) →
    ((h.step (.statement index (.auth username password))).1 = .response .authenticated ↔
      ∃ own, passwordOf log username = some own ∧
        Digest.ofCredentials username own = Digest.ofCredentials username password)
  /-- Otherwise it fails. -/
  invalid_iff : ∀ index identity username password,
    h.seats[index]? = some (.taken identity) →
    ((h.step (.statement index (.auth username password))).1 = .response .invalidCredentials ↔
      ¬ ∃ own, passwordOf log username = some own ∧
        Digest.ofCredentials username own = Digest.ofCredentials username password)
  /-- A session is known as nobody before its first login, and then as the user of its last one. -/
  identity_eq : ∀ index identity, h.seats[index]? = some (.taken identity) →
    identity = (lastLogin index log).map (⟨·, .admin⟩)
  /-- Nothing but a login of its own that succeeds changes whom a session is known as. -/
  unchanged : ∀ step index before after, h.seats[index]? = some (.taken before) →
    (h.step step).2.seats[index]? = some (.taken after) →
    (∀ r ∈ step.parts.zip (h.run step.parts).1, login index r = none) → after = before
  /-- A request is run as its statements one by one, with the lines of their responses. -/
  request_eq : ∀ index identity text, h.seats[index]? = some (.taken identity) →
    match parse text with
    | .ok statements =>
      let alone := h.run (statements.map (.statement index))
      h.step (.request index text) =
        (.answered statements.length (alone.1.flatMap Answer.bytes), alone.2)
    | .error e =>
      h.step (.request index text) = (.answered 0 (Response.error e.message).line, h)

lemma AccountsAre.known_isSome_iff (haccounts : AccountsAre h log) (username password : String) :
    ((Statement.auth username password).known h.stores).isSome = true ↔
      ∃ own, passwordOf log username = some own ∧
        Digest.ofCredentials username own = Digest.ofCredentials username password := by
  rw [Statement.known, haccounts.account_eq]
  cases passwordOf log username with
  | none => simp
  | some own => simp [Option.filter_some, ← Account.accepts_create_iff username own password .admin]

lemma latest?_append_of_forall {β : Type u} {γ : Type v} {tells : β → Option γ}
    (history : List β) {later : List β} (hlater : ∀ r ∈ later, tells r = none) :
    latest? tells (history ++ later) = latest? tells history := by
  have hnone : later.reverse.findSome? tells = none :=
    List.findSome?_eq_none_iff.2 fun r hr => hlater r (List.mem_reverse.1 hr)
  rw [latest?, List.reverse_append, List.findSome?_append, hnone, Option.none_or, latest?]

/-- **The invariant says all of it.** -/
lemma accounted_of_accountsAre (haccounts : AccountsAre h log) (hseats : SeatsAre h log) :
    Accounted h log := by
  have hauth {index : Nat} {identity : Option Identity}
      (hseat : h.seats[index]? = some (.taken identity)) (username password : String) :
      (h.step (.statement index (.auth username password))).1 = .response
        (if ((Statement.auth username password).known h.stores).isSome then .authenticated
          else .invalidCredentials) := by
    rw [step_statement_eq (session?_of_taken hseat)]
    rfl
  refine ⟨haccounts.account_eq, ?_, ?_, hseats.identity_eq, ?_, ?_⟩
  · intro index identity username password hseat
    rw [hauth hseat, ← haccounts.known_isSome_iff]
    cases ((Statement.auth username password).known h.stores).isSome <;> simp
  · intro index identity username password hseat
    rw [hauth hseat, ← haccounts.known_isSome_iff]
    cases ((Statement.auth username password).known h.stores).isSome <;> simp
  · intro step index before after hbefore hafter hlogin
    have hparts : ∀ act ∈ step.parts, act.isRequest = false := fun act => isRequest_of_mem_parts
    obtain ⟨-, hrun⟩ := accountsAre_seatsAre_run haccounts hseats hparts
    rw [run_parts_step] at hrun
    have hlast : lastLogin index (log ++ step.parts.zip (h.run step.parts).1) =
        lastLogin index log := latest?_append_of_forall log hlogin
    rw [hrun.identity_eq index after hafter, hlast, hseats.identity_eq index before hbefore]
  · intro index identity text hseat
    cases hparse : parse text with
    | error e => exact step_request_error (session?_of_taken hseat) hparse
    | ok statements => exact step_request (session?_of_taken hseat) hparse

/-- **Who is known in which session.**  A hub starts with any data, an empty store of accounts with
any default lifetime, and no sessions, and then anything happens in any order.  Requests taken as
their statements, the hub afterwards is accounted for by its history. -/
theorem accounted_run (data : Store Bytes) (placement : Placement) (usual : Expiry)
    (now : Instant) (steps : List Step) :
    let h := start ⟨data, .empty placement usual, now⟩
    let acts := steps.flatMap Step.parts
    (h.run acts).2 = (h.run steps).2 ∧
    Accounted (h.run steps).2 (acts.zip (h.run acts).1) := by
  intro h acts
  have hparts : (h.run acts).2 = (h.run steps).2 := h.run_parts steps
  have haccounts : AccountsAre h [] := fun username => Store.find?_empty ..
  have hseats : SeatsAre h [] := by
    refine ⟨fun index identity hseat => ?_, fun index _ => rfl⟩
    contradiction
  have hacts : ∀ act ∈ acts, act.isRequest = false := by
    intro act hact
    obtain ⟨step, -, hmem⟩ := List.mem_flatMap.1 hact
    exact isRequest_of_mem_parts hmem
  obtain ⟨haccounts, hseats⟩ := accountsAre_seatsAre_run haccounts hseats hacts
  rw [hparts, List.nil_append] at haccounts hseats
  exact ⟨hparts, accounted_of_accountsAre haccounts hseats⟩

/-- A user has one password, then another, and then none; sessions that have logged in stay known,
and a login inside a request counts like any other. -/
theorem accounted_after_removal :
    let h := start ⟨.empty .mixing .never, .empty .mixing (.after .zero), .zero⟩
    let steps : List Step :=
      [.register "ada" "lace", .join, .join, .join, .elapse (.ofSeconds 9),
        .statement 0 (.auth "ada" "lace"), .register "ada" "byron",
        .request 1 "AUTH ada byron; SET k v", .unregister "ada",
        .statement 2 (.auth "ada" "byron")]
    let acts := steps.flatMap Step.parts
    let log := acts.zip (h.run acts).1
    Accounted (h.run steps).2 log ∧ passwordOf log "ada" = none ∧
    (h.run steps).2.seats =
      [.taken (some ⟨"ada", .admin⟩), .taken (some ⟨"ada", .admin⟩), .taken none] := by
  intro h steps acts log
  obtain ⟨-, haccounted⟩ := accounted_run (.empty .mixing .never) .mixing (.after .zero) .zero steps
  refine ⟨haccounted, ?_⟩
  decide +kernel

end Hub

end ExpiringStore
