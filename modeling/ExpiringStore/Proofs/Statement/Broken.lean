import ExpiringStore.Proofs.Statement.Tokens

/-!
# The token that breaks a clause

A clause that is no statement is broken by one of its tokens, or by the one that closes it.
`Breaks read t e` says that the token `t` does so after the tokens `read`, with the error `e`; it
has one case for each kind of error.  The parser finds just these places: a clause that is no
statement has one (`Clause.exists_breaks`), and where there is one the error is `e` whatever follows
(`Breaks.statement_eq`).

Up to the place where it is broken the clause is the beginning of a phrase.  So what was read can be
completed (`Breaks.derived_append`), and so it can when any of the tokens that were wanted is put in
place of the one that was found (`Breaks.derived_append_cons`).
-/

namespace ExpiringStore

open Grammar

/-! ## Tokens -/

/-- A token that closes a clause: a semicolon or the end of the input. -/
def Token.Closes (t : Token) : Prop := t.kind = .terminator ∨ t.kind = .endOfInput

namespace Token.Closes

variable {t : Token}

lemma isKey_eq (h : t.Closes) : t.isKey = false := by
  rcases h with h | h <;> simp [isKey, h]

lemma isValue_eq (h : t.Closes) : t.isValue = false := by
  rcases h with h | h <;> simp [isValue, isKey, h]

lemma kind_ne_number (h : t.Closes) : t.kind ≠ .number := by
  rcases h with h | h <;> simp [h]

end Token.Closes

/-- The tokens that are named by what was wanted. -/
def Expected.Names : Expected → Token → Prop
  | .key, t => t.isKey = true
  | .value, t => t.isValue = true
  | .terminator, t => t.kind = .terminator
  | .statement, t => ∃ k, t.kind = .keyword k

/-- Where an error says that it is. -/
def ParseError.position : ParseError → Position
  | .unterminated e => e.position
  | .unexpected found _ => found.position
  | .invalidTtl number => number.position

/-- Whether a token behind a statement is still read as a part of it. -/
def Grammar.Phrase.takes : Phrase → Token → Bool
  | .set _ _ _ none, t => t.kind = .number
  | .set _ _ _ (some _), _ => false
  | .get .., t => t.isKey
  | .delete .., t => t.isKey
  | .auth .., _ => false

/-- `Breaks read t e`: after the tokens `read` of a clause the token `t` cannot stand, and `e` is
the error. -/
inductive Breaks : List Token → Token → ParseError → Prop
  | statement {t} (hkind : ∀ k, t.kind ≠ .keyword k) (hend : t.kind ≠ .endOfInput) :
      Breaks [] t (.unexpected t .statement)
  | key {k} (lead : Lead k) {t} (ht : t.isKey = false) :
      Breaks [lead.1] t (.unexpected t .key)
  | value {k} (lead : Lead k) (hk : k = .set ∨ k = .auth) (key : Key) {t}
      (ht : t.isValue = false) : Breaks [lead.1, key.1] t (.unexpected t .value)
  | lifetime (lead : Lead .set) (key : Key) (value : Value) {t} (hkind : t.kind = .number)
      (hlarge : ∃ fault, Numeral.read UInt64.size t.literal = .error fault) :
      Breaks [lead.1, key.1, value.1] t (.invalidTtl t)
  | terminator (p : Phrase) {t} (htakes : p.takes t = false) (hcloses : ¬t.Closes) :
      Breaks p.tokens t (.unexpected t .terminator)

/-! ## The places of a phrase -/

lemma bind_eq_error_iff {ε α β : Type} {x : Except ε α} {f : α → Except ε β} {e : ε} :
    x >>= f = .error e ↔ x = .error e ∨ ∃ a, x = .ok a ∧ f a = .error e := by
  cases x <;> simp [bind, Except.bind]

lemma map_eq_error_iff {ε α β : Type} {x : Except ε α} {f : α → β} {e : ε} :
    x.map f = .error e ↔ x = .error e := by
  cases x <;> simp [Except.map]

/-- A list with a token at its end, cut before some token. -/
lemma exists_of_concat_eq_append {tokens read more : List Token} {stop t : Token}
    (h : tokens ++ [stop] = read ++ t :: more) :
    ∃ rest, tokens = read ++ rest ∧ rest ++ [stop] = t :: more := by
  rcases List.append_eq_append_iff.1 h with ⟨a, hread, hstop⟩ | ⟨rest, htokens, hrest⟩
  · have hnil : a = [] := by
      have hlength := congrArg List.length hstop
      simp only [List.length_append, List.length_cons, List.length_nil] at hlength
      exact List.length_eq_zero_iff.1 (by omega)
    subst hnil
    exact ⟨[], by rw [hread, List.append_nil, List.append_nil], hstop⟩
  · exact ⟨rest, htokens, hrest.symm⟩

namespace Clause

variable {stop : Token} {tokens rest : Remainder} {e : ParseError}

lemma demand_eq_error_iff {accept : Token → Bool} (hstop : accept stop = false)
    {expected : Expected} :
    demand stop accept expected tokens = .error e ↔
      ∃ t more, tokens ++ [stop] = t :: more ∧ accept t = false ∧ e = .unexpected t expected := by
  cases tokens with
  | nil =>
    simp only [demand, Except.error.injEq, List.nil_append, List.cons.injEq]
    constructor
    · rintro rfl
      exact ⟨stop, [], ⟨rfl, rfl⟩, hstop, rfl⟩
    · rintro ⟨t, more, ⟨rfl, rfl⟩, -, rfl⟩
      rfl
  | cons t tokens =>
    simp only [demand, List.cons_append, List.cons.injEq]
    by_cases ht : accept t = true
    · simp only [ht, if_true, reduceCtorEq, false_iff]
      rintro ⟨u, more, ⟨rfl, -⟩, hu, -⟩
      rw [hu] at ht
      cases ht
    · simp only [ht, Bool.false_eq_true, if_false, Except.error.injEq]
      constructor
      · rintro rfl
        exact ⟨t, _, ⟨rfl, rfl⟩, Bool.not_eq_true _ ▸ ht, rfl⟩
      · rintro ⟨u, more, ⟨rfl, -⟩, -, rfl⟩
        rfl

lemma demandKey_eq_error_iff (hstop : stop.Closes) :
    demandKey stop tokens = .error e ↔
      ∃ t more, tokens ++ [stop] = t :: more ∧ t.isKey = false ∧ e = .unexpected t .key := by
  rw [demandKey, map_eq_error_iff, demand_eq_error_iff hstop.isKey_eq]

lemma demandValue_eq_error_iff (hstop : stop.Closes) :
    demandValue stop tokens = .error e ↔
      ∃ t more, tokens ++ [stop] = t :: more ∧ t.isValue = false ∧
        e = .unexpected t .value := by
  rw [demandValue, map_eq_error_iff, demand_eq_error_iff hstop.isValue_eq]

/-- Only the first key can be missing. -/
lemma demandKeys_eq_error_iff (hstop : stop.Closes) :
    demandKeys stop tokens = .error e ↔
      ∃ t more, tokens ++ [stop] = t :: more ∧ t.isKey = false ∧ e = .unexpected t .key := by
  rw [← demandKey_eq_error_iff hstop, demandKeys, bind_eq_error_iff]
  simp [pure, Except.pure]

lemma lifetime_eq_error_iff :
    lifetime tokens = .error e ↔ ∃ t more, tokens = t :: more ∧ t.kind = .number ∧
      (∃ fault, Numeral.read UInt64.size t.literal = .error fault) ∧ e = .invalidTtl t := by
  cases tokens with
  | nil => simp [lifetime]
  | cons t tokens =>
    by_cases hkind : t.kind = .number
    · cases hread : Numeral.read UInt64.size t.literal <;>
        simp [lifetime, hkind, hread, eq_comm]
    · simp [lifetime, hkind]

lemma finish_eq_error_iff {s : Statement} :
    finish s tokens = .error e ↔
      ∃ t more, tokens = t :: more ∧ e = .unexpected t .terminator := by
  cases tokens <;> simp [finish, eq_comm]

/-! ## Clauses -/

lemma statement_lead {k : Keyword} (lead : Lead k) (tokens : List Token) (stop : Token) :
    (⟨lead.1 :: tokens, stop⟩ : Clause).statement = body stop tokens k := by
  simp only [statement, lead.2]

/-- **A phrase is read off the front of a clause**, up to a token that is no part of it. -/
lemma statement_append (p : Phrase) (hnum : Numbered p.tokens) {rest : List Token}
    (hrest : ∀ t ∈ rest.head?, p.takes t = false) (stop : Token) :
    (⟨p.tokens ++ rest, stop⟩ : Clause).statement = finish p.statement rest := by
  have hkey (key : Key) (more : List Token) :
      demandKey stop (key.1 :: more) = .ok (key.1.literal, more) :=
    demandKey_eq_ok_iff.2 ⟨key, rfl, rfl⟩
  have hvalue (value : Value) (more : List Token) :
      demandValue stop (value.1 :: more) = .ok (value.1.literal, more) :=
    demandValue_eq_ok_iff.2 ⟨value, rfl, rfl⟩
  have hkeys (first : Key) (others : List Key) (h : ∀ t ∈ rest.head?, t.isKey = false) :
      demandKeys stop (first.1 :: (others.map Subtype.val ++ rest)) =
        .ok (first.1.literal :: others.map (·.1.literal), rest) :=
    demandKeys_eq_ok_iff.2 ⟨first, others, rfl, rfl, h⟩
  cases p with
  | set lead key value l =>
    have hhead : Numbered ((l.map Subtype.val).toList ++ rest).head?.toList := by
      cases l with
      | some l => exact fun t ht => hnum t (by simp_all [Phrase.tokens])
      | none =>
        intro t ht hkind
        have hno := hrest t (Option.mem_toList.1 ht)
        simp [Phrase.takes, hkind] at hno
    have hlifetime : lifetime ((l.map Subtype.val).toList ++ rest) =
        .ok (l.map Lifetime.duration, rest) := by
      refine (lifetime_eq_ok_iff hhead).2 ⟨l, rfl, rfl, ?_⟩
      rintro rfl t ht hkind
      have hno := hrest t ht
      simp [Phrase.takes, hkind] at hno
    show (⟨lead.1 :: key.1 :: value.1 :: ((l.map Subtype.val).toList ++ rest), stop⟩ :
      Clause).statement = _
    rw [statement_lead]
    simp only [body, hkey, hvalue, hlifetime, bind, Except.bind]
    rfl
  | get lead first others =>
    show (⟨lead.1 :: first.1 :: (others.map Subtype.val ++ rest), stop⟩ : Clause).statement = _
    rw [statement_lead]
    simp only [body, hkeys first others hrest, bind, Except.bind]
    rfl
  | delete lead first others =>
    show (⟨lead.1 :: first.1 :: (others.map Subtype.val ++ rest), stop⟩ : Clause).statement = _
    rw [statement_lead]
    simp only [body, hkeys first others hrest, bind, Except.bind]
    rfl
  | auth lead username password =>
    show (⟨lead.1 :: username.1 :: password.1 :: rest, stop⟩ : Clause).statement = _
    rw [statement_lead]
    simp only [body, hkey, hvalue, bind, Except.bind]
    rfl

/-- What can be wrong behind a keyword that keys follow: the first key is missing, or the token
behind the last one is no semicolon. -/
lemma exists_breaks_of_keys {k : Keyword} (lead : Lead k) (hopen : ∀ t ∈ tokens, ¬t.Closes)
    (hstop : stop.Closes) (phrase : Key → List Key → Phrase)
    (htokens : ∀ first others,
      (phrase first others).tokens = lead.1 :: first.1 :: others.map Subtype.val)
    (htakes : ∀ first others t, (phrase first others).takes t = t.isKey)
    {f : List String → Statement}
    (h : (do
      let (keys, rest) ← demandKeys stop tokens
      finish (f keys) rest) = .error e) :
    ∃ read t more, lead.1 :: (tokens ++ [stop]) = read ++ t :: more ∧ Breaks read t e := by
  simp only [bind_eq_error_iff, demandKeys_eq_error_iff hstop, Prod.exists,
    demandKeys_eq_ok_iff, finish_eq_error_iff] at h
  rcases h with ⟨t, more, hfirst, ht, rfl⟩ |
    ⟨_, _, ⟨first, others, rfl, -, hrest⟩, t, more, rfl, rfl⟩
  · exact ⟨[lead.1], t, more, by rw [hfirst]; rfl, .key lead ht⟩
  · exact ⟨(phrase first others).tokens, t, more ++ [stop], by simp [htokens],
      .terminator _ ((htakes first others t).trans (hrest t rfl)) (hopen t (by simp))⟩

/-- What can be wrong behind a keyword that a key and a value follow: one of them is missing, or
what follows them is at fault. -/
lemma exists_breaks_of_key_value {k : Keyword} (lead : Lead k) (hk : k = .set ∨ k = .auth)
    (hstop : stop.Closes) (f : String → String → Remainder → Except ParseError Statement)
    (h : (do
      let (key, rest) ← demandKey stop tokens
      let (value, rest) ← demandValue stop rest
      f key value rest) = .error e) :
    (∃ read t more, lead.1 :: (tokens ++ [stop]) = read ++ t :: more ∧ Breaks read t e) ∨
    ∃ (key : Key) (value : Value) (rest : List Token), tokens = key.1 :: value.1 :: rest ∧
      f key.1.literal value.1.literal rest = .error e := by
  simp only [bind_eq_error_iff, Prod.exists, demandKey_eq_error_iff hstop, demandKey_eq_ok_iff,
    demandValue_eq_error_iff hstop, demandValue_eq_ok_iff] at h
  rcases h with ⟨t, more, htokens, ht, rfl⟩ | ⟨_, _, ⟨key, rfl, rfl⟩, h⟩
  · exact .inl ⟨[lead.1], t, more, by rw [htokens]; rfl, .key lead ht⟩
  rcases h with ⟨t, more, htokens, ht, rfl⟩ | ⟨_, rest, ⟨value, rfl, rfl⟩, h⟩
  · exact .inl ⟨[lead.1, key.1], t, more, by rw [List.cons_append, htokens]; rfl,
      .value lead hk key ht⟩
  · exact .inr ⟨key, value, rest, rfl, h⟩

lemma exists_breaks_of_body {k : Keyword} (lead : Lead k) (hnum : Numbered tokens)
    (hopen : ∀ t ∈ tokens, ¬t.Closes) (hstop : stop.Closes) (h : body stop tokens k = .error e) :
    ∃ read t more, lead.1 :: (tokens ++ [stop]) = read ++ t :: more ∧ Breaks read t e := by
  cases k with
  | set =>
    let others (key value : String) (rest : Remainder) : Except ParseError Statement :=
      lifetime rest >>= fun read => finish (.set key value read.1) read.2
    obtain hbreaks | ⟨key, value, rest, rfl, hrest⟩ :=
      exists_breaks_of_key_value lead (.inl rfl) hstop others h
    · exact hbreaks
    simp only [others, bind_eq_error_iff, Prod.exists, lifetime_eq_error_iff,
      finish_eq_error_iff] at hrest
    rcases hrest with ⟨t, more, rfl, hkind, hlarge, rfl⟩ | ⟨ttl, _, hlifetime, t, more, rfl, rfl⟩
    · exact ⟨[lead.1, key.1, value.1], t, more ++ [stop], rfl,
        .lifetime lead key value hkind hlarge⟩
    · have hhead : Numbered rest.head?.toList := fun u hu =>
        hnum u (by simp [List.mem_of_mem_head? (Option.mem_toList.1 hu)])
      obtain ⟨l, rfl, -, hother⟩ := (lifetime_eq_ok_iff hhead).1 hlifetime
      refine ⟨(Phrase.set lead key value l).tokens, t, more ++ [stop], by simp [Phrase.tokens],
        .terminator _ ?_ (hopen t (by simp))⟩
      cases l with
      | none => simp [Phrase.takes, hother rfl t rfl]
      | some l => rfl
  | get =>
    exact exists_breaks_of_keys lead hopen hstop (.get lead) (fun _ _ => rfl) (fun _ _ _ => rfl) h
  | del =>
    exact exists_breaks_of_keys lead hopen hstop (.delete lead) (fun _ _ => rfl)
      (fun _ _ _ => rfl) h
  | auth =>
    obtain hbreaks | ⟨username, password, rest, rfl, hrest⟩ :=
      exists_breaks_of_key_value lead (.inr rfl) hstop
        (fun username password => finish (.auth username password)) h
    · exact hbreaks
    obtain ⟨t, more, rfl, rfl⟩ := finish_eq_error_iff.1 hrest
    exact ⟨(Phrase.auth lead username password).tokens, t, more ++ [stop],
      by simp [Phrase.tokens], .terminator _ rfl (hopen t (by simp))⟩

lemma statement_of_not_keyword {t : Token} (ht : ∀ k, t.kind ≠ .keyword k) (rest : List Token)
    (stop : Token) :
    (⟨t :: rest, stop⟩ : Clause).statement = .error (.unexpected t .statement) := by
  simp only [statement]

/-- **A clause that is no statement is broken at some token**, at the latest at the one that closes
it. -/
lemma exists_breaks {c : Clause} (hnum : Numbered c.tokens) (hopen : ∀ t ∈ c.tokens, ¬t.Closes)
    (hstop : c.stop.Closes) (hempty : c.tokens = [] → c.stop.kind = .terminator)
    (h : c.statement = .error e) :
    ∃ read t more, c.tokens ++ [c.stop] = read ++ t :: more ∧ Breaks read t e := by
  obtain ⟨tokens, stop⟩ := c
  cases tokens with
  | nil =>
    cases h
    have hkind : stop.kind = .terminator := hempty rfl
    exact ⟨[], stop, [], rfl, .statement (by simp [hkind]) (by simp [hkind])⟩
  | cons t tokens =>
    obtain ⟨ht, htokens⟩ := List.forall_mem_cons.1 hopen
    by_cases hlead : ∃ k, t.kind = .keyword k
    · obtain ⟨k, hk⟩ := hlead
      rw [statement_lead ⟨t, hk⟩] at h
      exact exists_breaks_of_body ⟨t, hk⟩ (fun u hu => hnum u (by simp [hu])) htokens hstop h
    · have hno : ∀ k, t.kind ≠ .keyword k := fun k hk => hlead ⟨k, hk⟩
      rw [statement_of_not_keyword hno] at h
      cases h
      exact ⟨[], t, tokens ++ [stop], rfl, .statement hno fun hend => ht (.inr hend)⟩

end Clause

/-- **A token that breaks a clause breaks it whatever follows.** -/
lemma Breaks.statement_eq {read : List Token} {t : Token} {e : ParseError} (h : Breaks read t e)
    (hnum : Numbered read) {c : Clause} (hstop : c.stop.Closes) {more : List Token}
    (hc : c.tokens ++ [c.stop] = read ++ t :: more) : c.statement = .error e := by
  obtain ⟨tokens, stop⟩ := c
  obtain ⟨rest, htokens, hrest⟩ := exists_of_concat_eq_append hc
  obtain rfl : tokens = read ++ rest := htokens
  cases h with
  | statement hkind hend =>
    cases rest with
    | nil =>
      obtain ⟨rfl, -⟩ := List.cons.inj hrest
      rfl
    | cons u rest =>
      obtain ⟨rfl, -⟩ := List.cons.inj hrest
      exact Clause.statement_of_not_keyword hkind rest stop
  | @key k lead t ht =>
    have hdemand := (Clause.demandKey_eq_error_iff hstop).2 ⟨t, more, hrest, ht, rfl⟩
    rw [List.singleton_append, Clause.statement_lead]
    cases k <;> simp [Clause.body, Clause.demandKeys, hdemand, bind, Except.bind]
  | @value k lead hk key t ht =>
    have hkey : Clause.demandKey stop (key.1 :: rest) = .ok (key.1.literal, rest) :=
      Clause.demandKey_eq_ok_iff.2 ⟨key, rfl, rfl⟩
    have hdemand := (Clause.demandValue_eq_error_iff hstop).2 ⟨t, more, hrest, ht, rfl⟩
    show (⟨lead.1 :: key.1 :: rest, stop⟩ : Clause).statement = _
    rw [Clause.statement_lead]
    rcases hk with rfl | rfl <;> simp [Clause.body, hkey, hdemand, bind, Except.bind]
  | @lifetime lead key value t hkind hlarge =>
    cases rest with
    | nil =>
      obtain ⟨rfl, -⟩ := List.cons.inj hrest
      exact absurd hkind hstop.kind_ne_number
    | cons u rest =>
      obtain ⟨rfl, -⟩ := List.cons.inj hrest
      have hkey : Clause.demandKey stop (key.1 :: value.1 :: u :: rest) =
          .ok (key.1.literal, value.1 :: u :: rest) :=
        Clause.demandKey_eq_ok_iff.2 ⟨key, rfl, rfl⟩
      have hvalue : Clause.demandValue stop (value.1 :: u :: rest) =
          .ok (value.1.literal, u :: rest) :=
        Clause.demandValue_eq_ok_iff.2 ⟨value, rfl, rfl⟩
      have hlifetime := Clause.lifetime_eq_error_iff.2 ⟨u, rest, rfl, hkind, hlarge, rfl⟩
      show (⟨lead.1 :: key.1 :: value.1 :: u :: rest, stop⟩ : Clause).statement = _
      rw [Clause.statement_lead]
      simp [Clause.body, hkey, hvalue, hlifetime, bind, Except.bind]
  | @terminator p t htakes hcloses =>
    cases rest with
    | nil =>
      obtain ⟨rfl, -⟩ := List.cons.inj hrest
      exact absurd hstop hcloses
    | cons u rest =>
      obtain ⟨rfl, -⟩ := List.cons.inj hrest
      have hhead : ∀ v ∈ (u :: rest).head?, p.takes v = false := by
        rintro v hv
        cases hv
        exact htakes
      rw [Clause.statement_append p hnum hhead]
      rfl

lemma Breaks.unbroken {read : List Token} {t : Token} {e : ParseError} (h : Breaks read t e) :
    Unbroken read := by
  cases h with
  | statement => exact nofun
  | key lead => simp [Unbroken, lead.kind_ne]
  | value lead _ key => simp [Unbroken, lead.kind_ne, key.kind_ne]
  | lifetime lead key value => simp [Unbroken, lead.kind_ne, key.kind_ne, value.kind_ne]
  | terminator p => exact p.unbroken_tokens

lemma Breaks.ne_nil {read : List Token} {t : Token} {e : ParseError} (h : Breaks read t e)
    (hend : t.kind = .endOfInput) : read ≠ [] := by
  cases h with
  | statement _ hno => exact absurd hend hno
  | key => exact List.cons_ne_nil _ _
  | value => exact List.cons_ne_nil _ _
  | lifetime => exact List.cons_ne_nil _ _
  | terminator p =>
    obtain ⟨u, rest, hp, -⟩ := p.exists_tokens_eq_cons
    rw [hp]
    exact List.cons_ne_nil u rest

/-! ## What was read so far -/

/-- A word that can be a key. -/
def someKey : Key := ⟨⟨.identifier, "k", .start⟩, .inl rfl⟩

/-- A word that can be a value. -/
def someValue : Value := ⟨someKey.1, .inr (.inl rfl)⟩

lemma proper_someKey : someKey.1.Proper := by
  have hword : WordChars "k".toList := by
    refine ⟨by decide, fun c hc => ?_⟩
    obtain rfl : c = 'k' := by simpa using hc
    decide
  exact ⟨Token.wellFormed_ofWord hword .start, nofun⟩

/-- A keyword and a key begin a statement. -/
lemma exists_derived_key {k : Keyword} (lead : Lead k) (key : Key) :
    ∃ more, (∀ u ∈ more, u.Proper) ∧ Derived (lead.1 :: key.1 :: more) := by
  have hvalue : ∀ u ∈ [someValue.1], u.Proper := by simpa [someValue] using proper_someKey
  cases k with
  | set => exact ⟨_, hvalue, .of_phrase (.set lead key someValue none)⟩
  | get => exact ⟨[], List.forall_mem_nil _, .of_phrase (.get lead key [])⟩
  | del => exact ⟨[], List.forall_mem_nil _, .of_phrase (.delete lead key [])⟩
  | auth => exact ⟨_, hvalue, .of_phrase (.auth lead key someValue)⟩

/-- A keyword begins a statement. -/
lemma exists_derived_lead {k : Keyword} (lead : Lead k) :
    ∃ more, (∀ u ∈ more, u.Proper) ∧ Derived (lead.1 :: more) := by
  obtain ⟨more, hmore, hderived⟩ := exists_derived_key lead someKey
  exact ⟨someKey.1 :: more, List.forall_mem_cons.2 ⟨proper_someKey, hmore⟩, hderived⟩

/-- **What was read can be completed.** -/
lemma Breaks.derived_append {read : List Token} {t : Token} {e : ParseError} (h : Breaks read t e) :
    ∃ more, (∀ u ∈ more, u.Proper) ∧ Derived (read ++ more) := by
  cases h with
  | statement => exact ⟨[], List.forall_mem_nil _, .inl rfl⟩
  | key lead => exact exists_derived_lead lead
  | value lead _ key => exact exists_derived_key lead key
  | lifetime lead key value =>
    exact ⟨[], List.forall_mem_nil _, .of_phrase (.set lead key value none)⟩
  | terminator p => exact ⟨[], List.forall_mem_nil _, by simpa using Derived.of_phrase p⟩

/-- **What was wanted can stand there.** -/
lemma Breaks.derived_append_cons {read : List Token} {t : Token} {expected : Expected}
    (h : Breaks read t (.unexpected t expected)) {u : Token} (hu : expected.Names u) :
    ∃ more, (∀ v ∈ more, v.Proper) ∧ Derived (read ++ u :: more) := by
  cases h with
  | statement =>
    obtain ⟨k, hk⟩ := hu
    exact exists_derived_lead (k := k) ⟨u, hk⟩
  | key lead =>
    have hkey : u.kind = .identifier ∨ u.kind = .number := by
      simpa [Expected.Names, Token.isKey] using hu
    exact exists_derived_key lead ⟨u, hkey⟩
  | value lead hk key =>
    let value : Value := ⟨u, by simpa [Expected.Names, Token.isValue, Token.isKey] using hu⟩
    rcases hk with rfl | rfl
    · exact ⟨[], List.forall_mem_nil _, .of_phrase (.set lead key value none)⟩
    · exact ⟨[], List.forall_mem_nil _, .of_phrase (.auth lead key value)⟩
  | terminator p => exact ⟨[], List.forall_mem_nil _, .phrase_append p ⟨u, hu⟩ (.inl rfl)⟩

end ExpiringStore
