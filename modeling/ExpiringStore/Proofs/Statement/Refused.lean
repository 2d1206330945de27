import ExpiringStore.Proofs.Statement.Broken
import ExpiringStore.Proofs.Token.Joined

/-!
# The token at which a request is refused

A request is refused at a token because of what stands before it, and nothing behind that token is
looked at.  `Refused read t e` says that after the tokens `read` of a request the token `t` is
refused with the error `e`: whole statements with their semicolons are behind, and `t` breaks the
clause that has begun.  The parser fails with an error exactly where `Refused` has it: when it fails
there is such a place (`exists_refused`), and at such a place it fails whatever follows
(`Refused.parseTokens_eq`).

`parse_refuses_at_first_unviable` is the main result.  The tokens before the place that an error
names can be completed to a request, and together with the token at that place they cannot.
-/

namespace ExpiringStore

open Grammar

/-- `Refused read t e`: after the tokens `read` of a request the token `t` cannot stand. -/
inductive Refused : List Token → Token → ParseError → Prop
  | clause {read t e} (h : Breaks read t e) : Refused read t e
  | later (p : Phrase) (semicolon : Semicolon) {read t e} (h : Refused read t e) :
      Refused (p.tokens ++ semicolon.1 :: read) t e

/-! ## Requests -/

lemma Clause.exists_split_append {last : Token} (hlast : last.Closes) {read : List Token}
    (hread : Unbroken read) (t : Token) (rest : List Token) :
    ∃ c cs more, split last (read ++ t :: rest) = c :: cs ∧
      c.tokens ++ [c.stop] = read ++ t :: more ∧ c.stop.Closes := by
  rcases unbroken_or_split (t :: rest) with hrest | ⟨front, s, others, heq, hfront, hs⟩
  · have hall : Unbroken (read ++ t :: rest) := List.forall_mem_append.2 ⟨hread, hrest⟩
    refine ⟨⟨read ++ t :: rest, last⟩, [], rest ++ [last], ?_, by simp, hlast⟩
    exact split_unbroken hall (by simp)
  · -- the first semicolon is `t` itself or stands behind it
    have hall : Unbroken (read ++ front) := List.forall_mem_append.2 ⟨hread, hfront⟩
    obtain ⟨more, hmore⟩ : ∃ more, front ++ [s] = t :: more := by
      cases front with
      | nil => exact ⟨[], by rw [(List.cons.inj heq).1]; rfl⟩
      | cons u front => exact ⟨front ++ [s], by rw [(List.cons.inj heq).1]; rfl⟩
    refine ⟨⟨read ++ front, s⟩, split last others, more, ?_, ?_, .inl hs⟩
    · rw [heq, ← List.append_assoc, split_append hall hs]
    · rw [List.append_assoc, hmore]

lemma parseTokens_phrase_append (stop : Token) (p : Phrase) (hnum : Numbered p.tokens)
    (semicolon : Semicolon) (rest : List Token) :
    parseTokens stop (p.tokens ++ semicolon.1 :: rest) =
      (parseTokens stop rest).map (p.statement :: ·) := by
  have hfirst : (⟨p.tokens, semicolon.1⟩ : Clause).statement = .ok p.statement := by
    have hread := Clause.statement_append p hnum (show ∀ t ∈ [].head?, p.takes t = false from nofun)
      semicolon.1
    rw [List.append_nil] at hread
    exact hread
  rw [parseTokens, Clause.split_append p.unbroken_tokens semicolon.2, List.mapM_cons, hfirst]
  rfl

/-- **A token at which a request is refused stops the parser whatever follows.** -/
lemma Refused.parseTokens_eq {read : List Token} {t : Token} {e : ParseError} (h : Refused read t e)
    (hnum : Numbered read) {stop : Token} (hstop : stop.kind = .endOfInput)
    {tokens more : List Token} (htokens : tokens ++ [stop] = read ++ t :: more) :
    parseTokens stop tokens = .error e := by
  obtain ⟨rest, rfl, hrest⟩ := exists_of_concat_eq_append htokens
  clear htokens
  induction h with
  | @clause read t e h =>
    have hcloses : stop.Closes := .inr hstop
    cases rest with
    | nil =>
      -- the token is the end of the input, and that ends a request where a statement may begin
      obtain ⟨rfl, -⟩ := List.cons.inj hrest
      rw [List.append_nil, parseTokens, Clause.split_unbroken h.unbroken (h.ne_nil hstop),
        List.mapM_cons, h.statement_eq hnum hcloses rfl]
      rfl
    | cons u rest =>
      obtain ⟨rfl, -⟩ := List.cons.inj hrest
      obtain ⟨c, cs, more, hsplit, hc, hcstop⟩ :=
        Clause.exists_split_append hcloses h.unbroken u rest
      rw [parseTokens, hsplit, List.mapM_cons, h.statement_eq hnum hcstop hc]
      rfl
  | later p semicolon h ih =>
    obtain ⟨hp, hread⟩ := hnum.of_append
    rw [List.append_assoc, List.cons_append, parseTokens_phrase_append stop p hp,
      ih (fun u hu => hread u (List.mem_cons_of_mem _ hu)) hrest]
    rfl

/-- **A request that cannot be parsed is refused at some token**, at the latest at its end. -/
lemma exists_refused {stop : Token} (hstop : stop.kind = .endOfInput) {tokens : List Token}
    (hproper : ∀ t ∈ tokens, t.Proper) {e : ParseError} (h : parseTokens stop tokens = .error e) :
    ∃ read t more, tokens ++ [stop] = read ++ t :: more ∧ Refused read t e := by
  have hopen {front : List Token} (hfront : Unbroken front) (hsub : ∀ t ∈ front, t.Proper) :
      ∀ t ∈ front, ¬t.Closes := by
    rintro t ht (hterminator | hend)
    · exact hfront t ht hterminator
    · exact (hsub t ht).kind_ne hend
  rcases Clause.unbroken_or_split tokens with hun | ⟨front, s, rest, rfl, hun, hs⟩
  · by_cases hnil : tokens = []
    · subst hnil
      cases h
    · rw [parseTokens, Clause.split_unbroken hun hnil, List.mapM_cons, bind_eq_error_iff] at h
      rcases h with hfirst | ⟨_, _, hrest⟩
      · obtain ⟨read, t, more, hread, hbreaks⟩ := Clause.exists_breaks (c := ⟨tokens, stop⟩)
          (Numbered.of_proper hproper) (hopen hun hproper) (.inr hstop)
          (fun htokens => absurd htokens hnil) hfirst
        exact ⟨read, t, more, hread, .clause hbreaks⟩
      · cases hrest
  · have hfront : ∀ t ∈ front, t.Proper := fun t ht => hproper t (by simp [ht])
    have hrest : ∀ t ∈ rest, t.Proper := fun t ht => hproper t (by simp [ht])
    rw [parseTokens, Clause.split_append hun hs, List.mapM_cons, bind_eq_error_iff] at h
    rcases h with hfirst | ⟨_, hfirst, hothers⟩
    · obtain ⟨read, t, more, hread, hbreaks⟩ := Clause.exists_breaks (c := ⟨front, s⟩)
        (Numbered.of_proper hfront) (hopen hun hfront) (.inl hs) (fun _ => hs) hfirst
      refine ⟨read, t, more ++ (rest ++ [stop]), ?_, .clause hbreaks⟩
      have hread' : front ++ [s] = read ++ t :: more := hread
      calc front ++ s :: rest ++ [stop] = (front ++ [s]) ++ (rest ++ [stop]) := by simp
        _ = read ++ t :: (more ++ (rest ++ [stop])) := by rw [hread']; simp
    · obtain ⟨p, hp, -⟩ :=
        (Clause.statement_eq_ok_iff (c := ⟨front, s⟩) (Numbered.of_proper hfront)).1 hfirst
      obtain rfl : p.tokens = front := hp
      have herror : parseTokens stop rest = .error e := by
        rcases bind_eq_error_iff.1 hothers with hrest' | ⟨_, _, hnone⟩
        · exact hrest'
        · cases hnone
      obtain ⟨read, t, more, hread, hrefused⟩ := exists_refused hstop hrest herror
      refine ⟨p.tokens ++ s :: read, t, more, ?_, .later p ⟨s, hs⟩ hrefused⟩
      rw [List.append_assoc, List.cons_append, hread, List.append_assoc, List.cons_append]
termination_by tokens.length

namespace Refused

variable {read : List Token} {t : Token} {e : ParseError}

lemma derived_append (h : Refused read t e) :
    ∃ more, (∀ u ∈ more, u.Proper) ∧ Derived (read ++ more) := by
  induction h with
  | clause h => exact h.derived_append
  | later p semicolon h ih =>
    obtain ⟨more, hmore, hderived⟩ := ih
    refine ⟨more, hmore, ?_⟩
    rw [List.append_assoc, List.cons_append]
    exact hderived.phrase_append p semicolon

lemma derived_append_cons {expected : Expected} (h : Refused read t e)
    (he : e = .unexpected t expected) {u : Token} (hu : expected.Names u) :
    ∃ more, (∀ v ∈ more, v.Proper) ∧ Derived (read ++ u :: more) := by
  induction h with
  | clause h =>
    subst he
    exact h.derived_append_cons hu
  | later p semicolon h ih =>
    obtain ⟨more, hmore, hderived⟩ := ih he
    refine ⟨more, hmore, ?_⟩
    rw [List.append_assoc, List.cons_append]
    exact hderived.phrase_append p semicolon

/-- The error is about the token, and it is one of two kinds. -/
lemma error_eq (h : Refused read t e) :
    (∃ expected, e = .unexpected t expected) ∨ e = .invalidTtl t := by
  induction h with
  | later p semicolon h ih => exact ih
  | clause h =>
    cases h with
    | lifetime => exact .inr rfl
    | _ => exact .inl ⟨_, rfl⟩

/-- **A lifetime that is refused** is a number of `2 ^ 64` or more behind `SET`, a key and a
value. -/
lemma lifetime (h : Refused read t e) (he : e = .invalidTtl t)
    (ht : t.kind = .number → t.Proper) :
    t.kind = .number ∧ 2 ^ 64 ≤ Numeral.value t.literal.toList ∧
      ∃ (front : List Token) (lead : Lead .set) (key : Key) (value : Value),
        read = front ++ [lead.1, key.1, value.1] ∧
        ∀ u ∈ front.getLast?, u.kind = .terminator := by
  induction h with
  | clause h =>
    cases h with
    | lifetime lead key value hkind hlarge =>
      obtain ⟨hne, hdigits⟩ := (ht hkind).digits hkind
      obtain ⟨fault, hread⟩ := hlarge
      have hsize : UInt64.size = 2 ^ 64 := rfl
      rw [Numeral.read_eq hne hdigits (by decide), hsize] at hread
      refine ⟨hkind, ?_, [], lead, key, value, rfl, nofun⟩
      by_contra hlt
      rw [if_pos (Nat.lt_of_not_le hlt)] at hread
      cases hread
    | _ => cases he
  | later p semicolon h ih =>
    obtain ⟨hkind, hlarge, front, lead, key, value, rfl, hfront⟩ := ih he ht
    refine ⟨hkind, hlarge, p.tokens ++ semicolon.1 :: front, lead, key, value, by simp, ?_⟩
    intro u hu
    rcases List.eq_nil_or_concat front with rfl | ⟨others, last, rfl⟩
    · obtain rfl : semicolon.1 = u := by simpa using hu
      exact semicolon.2
    · refine hfront u ?_
      rw [List.concat_eq_append, ← List.cons_append, ← List.append_assoc,
        List.getLast?_concat] at hu
      rw [List.concat_eq_append, List.getLast?_concat]
      exact hu

end Refused

/-! ## The place of an error -/

/-- Every token stands behind the ones before it. -/
lemma Layout.pairwise_offset {before rest : List Char} {ts : List Token}
    (h : Layout before rest ts) :
    (∀ t ∈ ts, byteCount before ≤ t.position.offset) ∧
      ts.Pairwise fun t u => t.position.offset < u.position.offset := by
  induction h with
  | stop hgap => simp [Token.endAt]
  | @token before gap t rest ts hgap hkind hform hplace hend hrest ih =>
    obtain ⟨hlater, hpairwise⟩ := ih
    have hspan := byteCount_pos (hform.span_ne_nil hkind)
    have hoffset : t.position.offset = byteCount (before ++ gap) := by rw [hplace]; rfl
    simp only [byteCount_append] at hlater hoffset
    refine ⟨List.forall_mem_cons.2 ⟨by omega, fun u hu => ?_⟩, hpairwise.cons fun u hu => ?_⟩
    · have := hlater u hu
      omega
    · have := hlater u hu
      omega

/-- A place names one token. -/
lemma eq_of_position_eq {ts front front' later later' : List Token} {t t' : Token}
    (hts : ts.Pairwise fun t u => t.position.offset < u.position.offset)
    (h : ts = front ++ t :: later) (h' : ts = front' ++ t' :: later')
    (hposition : t'.position = t.position) : front' = front ∧ t' = t := by
  subst h
  have hbehind := (List.pairwise_cons.1 (List.pairwise_append.1 hts).2.1).1
  rw [h'] at hts
  have hbehind' := (List.pairwise_cons.1 (List.pairwise_append.1 hts).2.1).1
  rcases List.append_eq_append_iff.1 h' with ⟨mid, hfront, hlater⟩ | ⟨mid, hfront, hlater⟩
  · cases mid with
    | nil =>
      rw [hfront, List.append_nil]
      exact ⟨rfl, (List.cons.inj hlater).1.symm⟩
    | cons u mid =>
      obtain ⟨-, rfl⟩ := List.cons.inj hlater
      have := hbehind t' (by simp)
      rw [hposition] at this
      exact absurd this (Nat.lt_irrefl _)
  · cases mid with
    | nil =>
      rw [hfront, List.append_nil]
      exact ⟨rfl, (List.cons.inj hlater).1⟩
    | cons u mid =>
      obtain ⟨-, rfl⟩ := List.cons.inj hlater
      have := hbehind' t (by simp)
      rw [hposition] at this
      exact absurd this (Nat.lt_irrefl _)

lemma Refused.not_parses {read : List Token} {t : Token} {e : ParseError} (h : Refused read t e)
    (hnum : Numbered read) :
    if t.kind = .endOfInput then ¬Parses read else ∀ more, ¬Parses (read ++ t :: more) := by
  by_cases hend : t.kind = .endOfInput
  · rw [if_pos hend]
    rintro ⟨p, ast, hok⟩
    have herror : parseTokens t read = .error e := h.parseTokens_eq hnum hend rfl
    have hsame := toOption_parseTokens hnum t (.endAt p)
    rw [herror, hok] at hsame
    cases hsame
  · rw [if_neg hend]
    rintro more ⟨p, ast, hok⟩
    have herror : parseTokens (.endAt p) (read ++ t :: more) = .error e :=
      h.parseTokens_eq hnum rfl (List.append_assoc read (t :: more) [.endAt p])
    rw [hok] at herror
    cases herror

/-! ## The main result -/

/-- **An error is reported at the first token that cannot stand.**  A text that has tokens and is no
request is refused at one of them, the token `t` at the place of the error, with the tokens `front`
before it.  These can be completed to a request.  Together with `t` they cannot, or, if `t` is the
end of the input, they are no request as they are.  Either the error names `t` and what was wanted,
and then every token that is named by what was wanted could have stood there; or `t` is a number of
`2 ^ 64` or more where `SET`, a key and a value stand before it, and the error has its digits. -/
theorem parse_refuses_at_first_unviable {text : String} {l : Lexed} {e : ParseError}
    (hl : tokenize text = .ok l) (he : parse text = .error e) :
    ∃ front t later, l.toList = front ++ t :: later ∧ t.position = e.position ∧
      (∀ front' t' later', l.toList = front' ++ t' :: later' → t'.position = e.position →
        front' = front ∧ t' = t) ∧
      (∃ more, (∀ u ∈ more, u.Proper) ∧ Parses (front ++ more)) ∧
      (if t.kind = .endOfInput then ¬Parses front else ∀ more, ¬Parses (front ++ t :: more)) ∧
      ((∃ expected, e = .unexpected t expected ∧
          e.message = "unexpected " ++ t.describe ++ " at " ++ t.position.text ++ ", expected " ++
            expected.text ∧
          ∀ u : Token, u.Proper → expected.Names u →
            ∃ more, (∀ v ∈ more, v.Proper) ∧ Parses (front ++ u :: more)) ∨
        (e = .invalidTtl t ∧
          e.message = "invalid ttl '" ++ t.literal ++ "' at " ++ t.position.text ∧
          t.kind = .number ∧ (∀ c ∈ t.literal.toList, c.isDigit = true) ∧
          2 ^ 64 ≤ Numeral.value t.literal.toList ∧
          ∃ (earlier : List Token) (lead : Lead .set) (key : Key) (value : Value),
            front = earlier ++ [lead.1, key.1, value.1] ∧
            ∀ u ∈ earlier.getLast?, u.kind = .terminator)) := by
  obtain ⟨hproper, -⟩ := proper_of_tokenize hl
  rw [parse_of_tokenize hl] at he
  obtain ⟨front, t, later, hsplit, hrefused⟩ := exists_refused rfl hproper he
  have hlist : l.toList = front ++ t :: later := hsplit
  have hplace : t.position = e.position := by
    rcases hrefused.error_eq with ⟨expected, rfl⟩ | rfl <;> rfl
  obtain ⟨read, htokens, -⟩ := exists_of_concat_eq_append hsplit
  have hfront : Numbered front :=
    .of_proper fun u hu => hproper u (by rw [htokens]; exact List.mem_append_left _ hu)
  have hcompleted {tokens : List Token} (hnum : Numbered tokens)
      (h : ∃ more, (∀ u ∈ more, u.Proper) ∧ Derived (tokens ++ more)) :
      ∃ more, (∀ u ∈ more, u.Proper) ∧ Parses (tokens ++ more) := by
    obtain ⟨more, hmore, hderived⟩ := h
    exact ⟨more, hmore, (parses_iff_derived (hnum.append (.of_proper hmore))).2 hderived⟩
  refine ⟨front, t, later, hlist, hplace, ?_, hcompleted hfront hrefused.derived_append,
    hrefused.not_parses hfront, ?_⟩
  · intro front' t' later' hlist' hplace'
    exact eq_of_position_eq (layout_of_tokenize hl).pairwise_offset.2 hlist hlist'
      (hplace'.trans hplace.symm)
  · rcases hrefused.error_eq with ⟨expected, rfl⟩ | rfl
    · refine .inl ⟨expected, rfl, rfl, fun u hu hnames => ?_⟩
      obtain ⟨more, hmore, hderived⟩ := hrefused.derived_append_cons rfl hnames
      have hnum : Numbered (front ++ u :: more) :=
        hfront.append (.of_proper (List.forall_mem_cons.2 ⟨hu, hmore⟩))
      exact ⟨more, hmore, (parses_iff_derived hnum).2 hderived⟩
    · have ht : t.kind = .number → t.Proper := by
        intro hkind
        have hmem : t ∈ l.tokens ++ [l.last] := by rw [hsplit]; simp
        rcases List.mem_append.1 hmem with hin | hlast
        · exact hproper t hin
        · rw [List.mem_singleton.1 hlast] at hkind
          cases hkind
      obtain ⟨hkind, hlarge, hbefore⟩ := hrefused.lifetime rfl ht
      exact .inr ⟨rfl, rfl, hkind, ((ht hkind).digits hkind).2, hlarge, hbefore⟩

/-- A request of three statements in two lines: the last one has no key, and a semicolon stands in
its place. -/
theorem parse_refuses_semicolon_for_key :
    let text := "SET a \"x;y\" 007;\nGET é 1; DEL ;"
    let front : List Token := [⟨.keyword .set, "SET", ⟨0, 1, 1⟩⟩, ⟨.identifier, "a", ⟨4, 1, 5⟩⟩,
      ⟨.string, "x;y", ⟨6, 1, 7⟩⟩, ⟨.number, "007", ⟨12, 1, 13⟩⟩, ⟨.terminator, ";", ⟨15, 1, 16⟩⟩,
      ⟨.keyword .get, "GET", ⟨17, 2, 1⟩⟩, ⟨.identifier, "é", ⟨21, 2, 5⟩⟩,
      ⟨.number, "1", ⟨24, 2, 7⟩⟩, ⟨.terminator, ";", ⟨25, 2, 8⟩⟩,
      ⟨.keyword .del, "DEL", ⟨27, 2, 10⟩⟩]
    let t : Token := ⟨.terminator, ";", ⟨31, 2, 14⟩⟩
    tokenize text = .ok ⟨front ++ [t], ⟨32, 2, 15⟩⟩ ∧ parse text = .error (.unexpected t .key) ∧
      (∃ more, Parses (front ++ more)) ∧ (∀ more, ¬Parses (front ++ t :: more)) ∧
      ∃ more, Parses (front ++ someKey.1 :: more) := by
  intro text front t
  have hl : tokenize text = .ok ⟨front ++ [t], ⟨32, 2, 15⟩⟩ := by decide +kernel
  have he : parse text = .error (.unexpected t .key) := by decide +kernel
  obtain ⟨front', t', later, -, -, hunique, ⟨more, -, hmore⟩, hnot, herror⟩ :=
    parse_refuses_at_first_unviable hl he
  obtain ⟨rfl, rfl⟩ := hunique front t [.endAt ⟨32, 2, 15⟩] (List.append_assoc ..) rfl
  refine ⟨hl, he, ⟨more, hmore⟩, hnot, ?_⟩
  rcases herror with ⟨expected, hkey, -, hnames⟩ | ⟨hlarge, -⟩
  · cases hkey
    obtain ⟨more, -, hparses⟩ := hnames someKey.1 proper_someKey rfl
    exact ⟨more, hparses⟩
  · cases hlarge

end ExpiringStore
