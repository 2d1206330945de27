import ExpiringStore.Proofs.Statement.Derivation
import ExpiringStore.Proofs.Token.Joined

/-!
# Requests that are put together

A request that ends with a semicolon can have another one put behind it, and it is parsed to the
statements of both (`parse_append`).  If the other one is no request, its error is the error of the
whole, with its place moved.  A request that does not end with a semicolon means the same with one
put behind it (`parse_concat_semicolon`), unless there is no statement for it to end.

Behind a semicolon a new clause begins, so the clauses of the whole are those of the two texts
(`Clause.split_append_split`).  What a clause means depends on the kinds and the literals of its
tokens; their places matter to errors only, and move with them (`Clause.statement_movedBy`).
-/

namespace ExpiringStore

/-- The error after a text was put in front of its text. -/
def ParseError.movedBy (e : ParseError) (before : List Char) : ParseError :=
  match e with
  | .unterminated e => .unterminated (e.movedBy before)
  | .unexpected found expected => .unexpected (found.movedBy before) expected
  | .invalidTtl number => .invalidTtl (number.movedBy before)

/-- An outcome after a text was put in front of the text: a result as `f` has it, or the error
moved. -/
def moveOutcome (before : List Char) (f : α → β) : Except ParseError α → Except ParseError β
  | .ok a => .ok (f a)
  | .error e => .error (e.movedBy before)

lemma moveOutcome_bind (before : List Char) {f : α → β} {g : γ → δ} {x : Except ParseError α}
    {k : α → Except ParseError γ} {k' : β → Except ParseError δ}
    (hk : ∀ a, k' (f a) = moveOutcome before g (k a)) :
    (moveOutcome before f x >>= k') = moveOutcome before g (x >>= k) := by
  cases x with
  | error e => rfl
  | ok a => exact hk a

namespace Clause

variable (before : List Char)

abbrev movedTokens (tokens : List Token) : List Token := tokens.map (·.movedBy before)

def movedBy (c : Clause) : Clause := ⟨movedTokens before c.tokens, c.stop.movedBy before⟩

/-! ## One clause -/

lemma demand_movedBy (stop : Token) {accept : Token → Bool} (expected : Expected)
    (haccept : ∀ t : Token, accept (t.movedBy before) = accept t) (tokens : Remainder) :
    demand (stop.movedBy before) accept expected (movedTokens before tokens) =
      moveOutcome before (Prod.map (·.movedBy before) (movedTokens before))
        (demand stop accept expected tokens) := by
  cases tokens with
  | nil => rfl
  | cons t rest =>
    rw [movedTokens, List.map_cons, demand, demand, haccept]
    cases accept t <;> rfl

lemma demandKey_movedBy (stop : Token) (tokens : Remainder) :
    demandKey (stop.movedBy before) (movedTokens before tokens) =
      moveOutcome before (Prod.map id (movedTokens before))
        (demandKey stop tokens) := by
  rw [demandKey, demand_movedBy before stop .key (fun _ => rfl), demandKey]
  cases demand stop Token.isKey .key tokens <;> rfl

lemma demandValue_movedBy (stop : Token) (tokens : Remainder) :
    demandValue (stop.movedBy before) (movedTokens before tokens) =
      moveOutcome before (Prod.map id (movedTokens before))
        (demandValue stop tokens) := by
  rw [demandValue, demand_movedBy before stop .value (fun _ => rfl), demandValue]
  cases demand stop Token.isValue .value tokens <;> rfl

lemma demandKeys_movedBy (stop : Token) (tokens : Remainder) :
    demandKeys (stop.movedBy before) (movedTokens before tokens) =
      moveOutcome before (Prod.map id (movedTokens before))
        (demandKeys stop tokens) := by
  rw [demandKeys, demandKey_movedBy, demandKeys]
  refine moveOutcome_bind before fun r => ?_
  obtain ⟨key, rest⟩ := r
  have hkey : (fun t : Token => (t.movedBy before).isKey) = Token.isKey := rfl
  simp only [Prod.map_apply, movedTokens, List.takeWhile_map, List.dropWhile_map, List.map_map,
    Function.comp_def, hkey]
  rfl

lemma lifetime_movedBy (tokens : Remainder) :
    lifetime (movedTokens before tokens) =
      moveOutcome before (Prod.map id (movedTokens before))
        (lifetime tokens) := by
  cases tokens with
  | nil => rfl
  | cons t rest =>
    rw [movedTokens, List.map_cons, lifetime, lifetime, Token.kind_movedBy, Token.literal_movedBy]
    by_cases hkind : t.kind = .number
    · rw [if_pos hkind, if_pos hkind]
      cases Numeral.read UInt64.size t.literal <;> rfl
    · rw [if_neg hkind, if_neg hkind]
      rfl

lemma finish_movedBy (statement : Statement) (tokens : Remainder) :
    finish statement (movedTokens before tokens) =
      moveOutcome before id (finish statement tokens) := by
  cases tokens <;> rfl

lemma body_movedBy (stop : Token) (tokens : Remainder) (k : Keyword) :
    body (stop.movedBy before) (movedTokens before tokens) k =
      moveOutcome before id (body stop tokens k) := by
  cases k with
  | set =>
    rw [body, body, demandKey_movedBy]
    refine moveOutcome_bind before fun r => ?_
    obtain ⟨key, rest⟩ := r
    simp only [Prod.map_apply, id_eq, demandValue_movedBy]
    refine moveOutcome_bind before fun r => ?_
    obtain ⟨value, rest⟩ := r
    simp only [Prod.map_apply, id_eq, lifetime_movedBy]
    refine moveOutcome_bind before fun r => ?_
    obtain ⟨ttl, rest⟩ := r
    exact finish_movedBy before _ rest
  | get =>
    rw [body, body, demandKeys_movedBy]
    refine moveOutcome_bind before fun r => ?_
    obtain ⟨keys, rest⟩ := r
    exact finish_movedBy before _ rest
  | del =>
    rw [body, body, demandKeys_movedBy]
    refine moveOutcome_bind before fun r => ?_
    obtain ⟨keys, rest⟩ := r
    exact finish_movedBy before _ rest
  | auth =>
    rw [body, body, demandKey_movedBy]
    refine moveOutcome_bind before fun r => ?_
    obtain ⟨username, rest⟩ := r
    simp only [Prod.map_apply, id_eq, demandValue_movedBy]
    refine moveOutcome_bind before fun r => ?_
    obtain ⟨password, rest⟩ := r
    exact finish_movedBy before _ rest

/-- **What a clause means does not depend on its place.** -/
theorem statement_movedBy (c : Clause) :
    (c.movedBy before).statement = moveOutcome before id c.statement := by
  obtain ⟨tokens, stop⟩ := c
  cases tokens with
  | nil => rfl
  | cons t rest =>
    rw [movedBy, movedTokens, List.map_cons, statement, statement]
    simp only [Token.kind_movedBy]
    cases t.kind with
    | keyword k => exact body_movedBy before stop rest k
    | _ => rfl

/-! ## Clauses of two texts -/

lemma prepend_movedBy (last t : Token) (clauses : List Clause) :
    prepend (last.movedBy before) (t.movedBy before) (clauses.map (·.movedBy before)) =
      (prepend last t clauses).map (·.movedBy before) := by
  rw [prepend.eq_def, prepend.eq_def, Token.kind_movedBy]
  by_cases hkind : t.kind = .terminator
  · rw [if_pos hkind, if_pos hkind]
    rfl
  · rw [if_neg hkind, if_neg hkind]
    cases clauses <;> rfl

lemma split_movedBy (last : Token) (tokens : List Token) :
    split (last.movedBy before) (movedTokens before tokens) =
      (split last tokens).map (·.movedBy before) := by
  induction tokens with
  | nil => rfl
  | cons t tokens ih =>
    calc split (last.movedBy before) (movedTokens before (t :: tokens))
        = prepend (last.movedBy before) (t.movedBy before)
            (split (last.movedBy before) (movedTokens before tokens)) := rfl
      _ = (prepend last t (split last tokens)).map (·.movedBy before) := by
        rw [ih, prepend_movedBy]

lemma mapM_statement_movedBy (clauses : List Clause) :
    (clauses.map (·.movedBy before)).mapM statement =
      moveOutcome before id (clauses.mapM statement) := by
  induction clauses with
  | nil => rfl
  | cons c clauses ih =>
    rw [List.map_cons, List.mapM_cons, List.mapM_cons, statement_movedBy]
    refine moveOutcome_bind before fun s => ?_
    rw [ih]
    exact moveOutcome_bind before fun others => rfl

/-- Behind a semicolon a new clause begins. -/
lemma split_append_split {last t : Token} (ht : t.kind = .terminator) (front rest : List Token) :
    split last (front ++ t :: rest) = split last (front ++ [t]) ++ split last rest := by
  induction front with
  | nil => simp [split, prepend, ht]
  | cons u front ih =>
    have hne : split last (front ++ [t]) ≠ [] := by
      rcases unbroken_or_split (front ++ [t]) with hunbroken | ⟨x, v, y, heq, hx, hv⟩
      · exact absurd ht (hunbroken t (by simp))
      · rw [heq, split_append hx hv]
        exact List.cons_ne_nil _ _
    calc split last (u :: front ++ t :: rest)
        = prepend last u (split last (front ++ [t]) ++ split last rest) := by
          rw [← ih]
          rfl
      _ = prepend last u (split last (front ++ [t])) ++ split last rest := by
          obtain ⟨c, clauses, heq⟩ := List.exists_cons_of_ne_nil hne
          rw [heq, prepend.eq_def, prepend.eq_def]
          by_cases hu : u.kind = .terminator
          · rw [if_pos hu, if_pos hu]
            rfl
          · rw [if_neg hu, if_neg hu]
            rfl

end Clause

/-! ## Requests of two texts -/

open Grammar

variable {a : String} {l : Lexed} {A : List Statement}

/-- The tokens of a request are those of a derivation, and it means the statements. -/
lemma exists_program_of_parse (hl : tokenize a = .ok l) (ha : parse a = .ok A)
    (hne : l.tokens ≠ []) :
    ∃ p : Program, p.tokens = l.tokens ∧ p.statements = A := by
  simp only [parse, hl] at ha
  exact Clause.exists_program_of_mapM_statement (numbered_of_tokenize hl) hne ha

/-- **A request that ends with a semicolon** can have any text put behind it. -/
theorem parse_append (hl : tokenize a = .ok l) (ha : parse a = .ok A) {front : List Token}
    {semicolon : Token} (htokens : l.tokens = front ++ [semicolon])
    (hsemicolon : semicolon.kind = .terminator) (b : String) :
    parse (a ++ b) = moveOutcome a.toList (A ++ ·) (parse b) := by
  have hjoint : ∀ t ∈ l.tokens.getLast?, t.IsWord → EndsWord b.toList := by
    intro t ht hword
    rw [htokens, List.getLast?_concat, Option.mem_some] at ht
    exact absurd (ht ▸ hsemicolon) hword.2.1
  obtain ⟨p, hp, rfl⟩ := exists_program_of_parse hl ha (by simp [htokens])
  have hfirst (last : Token) : (Clause.split last l.tokens).mapM Clause.statement =
      .ok p.statements := by
    rw [← hp]
    exact Clause.mapM_statement_program p (hp ▸ numbered_of_tokenize hl)
  rw [parse, parse, tokenize_append hl b hjoint]
  cases tokenize b with
  | error e => rfl
  | ok r =>
    have hclauses : (⟨l.tokens ++ Clause.movedTokens a.toList r.tokens,
          r.stop.movedBy a.toList⟩ : Lexed).clauses =
        Clause.split (r.last.movedBy a.toList) l.tokens ++
          r.clauses.map (·.movedBy a.toList) := by
      rw [Lexed.clauses, Lexed.clauses, ← Clause.split_movedBy, htokens, List.append_assoc]
      exact Clause.split_append_split hsemicolon front _
    simp only [hclauses, List.mapM_append, hfirst, Clause.mapM_statement_movedBy]
    cases r.clauses.mapM Clause.statement <;> rfl

/-- **A request that does not end with a semicolon** means the same with one. -/
theorem parse_concat_semicolon (hl : tokenize a = .ok l) (ha : parse a = .ok A) {front : List Token}
    {last : Token} (htokens : l.tokens = front ++ [last]) (hlast : last.kind ≠ .terminator) :
    parse (a ++ ";") = .ok A ∧
      ∃ r semicolon, tokenize (a ++ ";") = .ok r ∧ r.tokens = l.tokens ++ [semicolon] ∧
        semicolon.kind = .terminator := by
  have hsemicolon : tokenize ";" = .ok ⟨[⟨.terminator, ";", .start⟩], ⟨1, 1, 2⟩⟩ := by
    decide +kernel
  have hjoint : ∀ t ∈ l.tokens.getLast?, t.IsWord → EndsWord ";".toList := by
    intro t _ _ c hc
    have hc' : c = ';' := by simpa using hc.symm
    rw [hc']
    decide
  have hread := tokenize_append hl ";" hjoint
  rw [hsemicolon] at hread
  refine ⟨?_, _, _, hread, rfl, rfl⟩
  obtain ⟨p, hp, rfl⟩ := exists_program_of_parse hl ha (by simp [htokens])
  have hopen : p.last = none := by
    cases hpl : p.last with
    | none => rfl
    | some t =>
      have hend : p.tokens.getLast? = some t.1 := by simp [Program.tokens, hpl]
      rw [hp, htokens, List.getLast?_concat] at hend
      exact absurd (Option.some.inj hend ▸ t.2) hlast
  -- the derivation of the whole has the semicolon in its last place
  let q : Program := { p with
    last := some ⟨(⟨.terminator, ";", .start⟩ : Token).movedBy a.toList, rfl⟩ }
  have hq : q.tokens =
      l.tokens ++ Clause.movedTokens a.toList [⟨.terminator, ";", .start⟩] := by
    rw [← hp, Program.tokens, Program.tokens, hopen]
    simp [q]
  have hnumbered : Numbered q.tokens := by
    intro t ht hnumber
    rw [hq] at ht
    rcases List.mem_append.1 ht with hfirst | hadded
    · exact numbered_of_tokenize hl t hfirst hnumber
    · rw [List.mem_singleton.1 hadded] at hnumber
      contradiction
  simp only [parse, hread, Lexed.clauses, ← hq]
  exact Clause.mapM_statement_program q hnumbered

end ExpiringStore
