import ExpiringStore.Proofs.Statement.Grammar
import ExpiringStore.Proofs.Token.Reading

/-!
# The parser accepts its grammar

`parse_eq_ok_iff_derivation` is the main result: a text is parsed to a list of statements exactly
when its tokens are none and so are the statements, or a derivation of the grammar yields those
tokens and means those statements; and tokens have one derivation at most.

A clause is a statement exactly when it is the tokens of a phrase (`statement_eq_ok_iff`), since
each step of the parser takes what one place of the phrase holds and the last step wants nothing
left.  Cutting tokens into clauses undoes putting phrases together with semicolons (`split_append`,
`split_unbroken`).  That the value of a lifetime is the one that was written needs the tokens to
come from a text, where a number consists of digits.
-/

namespace ExpiringStore

open Grammar

lemma bind_eq_ok_iff {ε α β : Type} {x : Except ε α} {f : α → Except ε β} {b : β} :
    x >>= f = .ok b ↔ ∃ a, x = .ok a ∧ f a = .ok b := by
  cases x <;> simp [bind, Except.bind]

/-- Number tokens consist of digits. -/
def Numbered (tokens : List Token) : Prop :=
  ∀ t ∈ tokens, t.kind = .number →
    t.literal.toList ≠ [] ∧ ∀ c ∈ t.literal.toList, c.isDigit = true

lemma numbered_of_tokenize {text : String} {l : Lexed} (h : tokenize text = .ok l) :
    Numbered l.tokens := by
  intro t ht hkind
  have hform := wellFormed_of_tokenize h t (by simp [Lexed.toList, ht])
  have hword : t.IsWord := by simp [Token.IsWord, hkind]
  refine ⟨(hform.word hword).1, ?_⟩
  rw [← Utf8.forall_mem_encode_digit_iff]
  exact (hform.number hword).1 hkind

namespace Clause

/-! ## The places of a phrase -/

lemma demandKey_eq_ok_iff {stop : Token} {tokens rest : Remainder} {key : String} :
    demandKey stop tokens = .ok (key, rest) ↔
      ∃ k : Key, tokens = k.1 :: rest ∧ k.1.literal = key := by
  cases tokens with
  | nil => simp [demandKey, demand, Except.map]
  | cons t tokens =>
    by_cases ht : t.isKey = true
    · have hkind : t.kind = .identifier ∨ t.kind = .number := by simpa [Token.isKey] using ht
      simp only [demandKey, demand, ht, if_true, Except.map, Except.ok.injEq, Prod.mk.injEq,
        List.cons.injEq]
      constructor
      · rintro ⟨rfl, rfl⟩
        exact ⟨⟨t, hkind⟩, ⟨rfl, rfl⟩, rfl⟩
      · rintro ⟨k, ⟨rfl, rfl⟩, rfl⟩
        exact ⟨rfl, rfl⟩
    · simp only [demandKey, demand, ht, if_false, Except.map, reduceCtorEq, false_iff]
      rintro ⟨k, heq, -⟩
      obtain ⟨rfl, -⟩ := List.cons.inj heq
      exact ht (by simpa [Token.isKey] using k.2)

lemma demandValue_eq_ok_iff {stop : Token} {tokens rest : Remainder} {value : String} :
    demandValue stop tokens = .ok (value, rest) ↔
      ∃ v : Value, tokens = v.1 :: rest ∧ v.1.literal = value := by
  cases tokens with
  | nil => simp [demandValue, demand, Except.map]
  | cons t tokens =>
    by_cases ht : t.isValue = true
    · have hkind : t.kind = .string ∨ t.kind = .identifier ∨ t.kind = .number := by
        simpa [Token.isValue, Token.isKey] using ht
      simp only [demandValue, demand, ht, if_true, Except.map, Except.ok.injEq, Prod.mk.injEq,
        List.cons.injEq]
      constructor
      · rintro ⟨rfl, rfl⟩
        exact ⟨⟨t, hkind⟩, ⟨rfl, rfl⟩, rfl⟩
      · rintro ⟨v, ⟨rfl, rfl⟩, rfl⟩
        exact ⟨rfl, rfl⟩
    · simp only [demandValue, demand, ht, if_false, Except.map, reduceCtorEq, false_iff]
      rintro ⟨v, heq, -⟩
      obtain ⟨rfl, -⟩ := List.cons.inj heq
      exact ht (by simpa [Token.isValue, Token.isKey] using v.2)

lemma finish_eq_ok_iff {s s' : Statement} {tokens : Remainder} :
    finish s tokens = .ok s' ↔ tokens = [] ∧ s = s' := by
  cases tokens <;> simp [finish]

lemma isKey_val (k : Key) : k.1.isKey = true := by
  simpa [Token.isKey] using k.2

/-- Keys are taken as long as they last. -/
lemma demandKeys_eq_ok_iff {stop : Token} {tokens rest : Remainder} {keys : List String} :
    demandKeys stop tokens = .ok (keys, rest) ↔
      ∃ (first : Key) (others : List Key), tokens = first.1 :: (others.map Subtype.val ++ rest) ∧
        keys = first.1.literal :: others.map (·.1.literal) ∧
        ∀ t ∈ rest.head?, t.isKey = false := by
  unfold demandKeys
  simp only [bind_eq_ok_iff, Prod.exists, demandKey_eq_ok_iff, pure, Except.pure,
    Except.ok.injEq, Prod.mk.injEq]
  constructor
  · rintro ⟨key, more, ⟨first, rfl, rfl⟩, rfl, rfl⟩
    have hkind : ∀ t ∈ more.takeWhile Token.isKey, t.kind = .identifier ∨ t.kind = .number :=
      fun t ht => by simpa [Token.isKey] using List.mem_takeWhile_imp ht
    refine ⟨first, (more.takeWhile Token.isKey).attachWith _ hkind, ?_, ?_, ?_⟩
    · rw [List.attachWith_map_subtype_val, List.takeWhile_append_dropWhile]
    · congr 1
      exact (List.attachWith_map_val (f := Token.literal) hkind).symm
    · intro t ht
      have hhead := List.head?_dropWhile_not Token.isKey more
      rw [Option.mem_def.1 ht] at hhead
      exact hhead
  · rintro ⟨first, others, rfl, rfl, hrest⟩
    have hall : ∀ t ∈ others.map Subtype.val, t.isKey = true := by
      intro t ht
      obtain ⟨k, -, rfl⟩ := List.mem_map.1 ht
      exact isKey_val k
    have hstop : rest.takeWhile Token.isKey = [] ∧ rest.dropWhile Token.isKey = rest := by
      cases rest with
      | nil => exact ⟨rfl, rfl⟩
      | cons t rest => simp [hrest t rfl]
    refine ⟨_, _, ⟨first, rfl, rfl⟩, ?_, ?_⟩
    · rw [List.takeWhile_append_of_pos hall, hstop.1, List.append_nil, List.map_map]
      rfl
    · rw [List.dropWhile_append_of_pos hall, hstop.2]

/-- Keys are taken up to the end of a clause exactly when there are only keys. -/
lemma demandKeys_eq_ok_nil_iff {stop : Token} {tokens : Remainder} {keys : List String} :
    demandKeys stop tokens = .ok (keys, []) ↔
      ∃ (first : Key) (others : List Key), tokens = first.1 :: others.map Subtype.val ∧
        keys = first.1.literal :: others.map (·.1.literal) := by
  simp [demandKeys_eq_ok_iff]

/-- A lifetime in milliseconds is as long as its number says. -/
lemma ofMillis_ofNat_value (l : Lifetime) :
    Duration.ofMillis (UInt64.ofNat (Numeral.value l.1.literal.toList)) = l.duration := by
  apply Duration.ext
  simpa [Lifetime.duration] using l.2.2

/-- A number is taken as the lifetime, and nothing else is. -/
lemma lifetime_eq_ok_iff {tokens rest : Remainder} (hnum : Numbered tokens.head?.toList)
    {ttl : Option Duration} :
    lifetime tokens = .ok (ttl, rest) ↔
      ∃ l : Option Lifetime, tokens = (l.map Subtype.val).toList ++ rest ∧
        ttl = l.map Lifetime.duration ∧ (l = none → ∀ t ∈ rest.head?, t.kind ≠ .number) := by
  have hsize : UInt64.size = 2 ^ 64 := rfl
  constructor
  · intro h
    cases tokens with
    | nil =>
      obtain ⟨rfl, rfl⟩ := Prod.mk.inj (Except.ok.inj h)
      exact ⟨none, rfl, rfl, fun _ => nofun⟩
    | cons t tokens =>
      by_cases hkind : t.kind = .number
      · obtain ⟨hne, hdigits⟩ := hnum t (by simp) hkind
        rw [lifetime, if_pos hkind, Numeral.read_eq hne hdigits (by decide), hsize] at h
        by_cases hlt : Numeral.value t.literal.toList < 2 ^ 64
        · rw [if_pos hlt] at h
          obtain ⟨rfl, rfl⟩ := Prod.mk.inj (Except.ok.inj h)
          let l : Lifetime := ⟨t, hkind, hlt⟩
          exact ⟨some l, rfl, congrArg some (ofMillis_ofNat_value l), nofun⟩
        · rw [if_neg hlt] at h
          cases h
      · rw [lifetime, if_neg hkind] at h
        obtain ⟨rfl, rfl⟩ := Prod.mk.inj (Except.ok.inj h)
        exact ⟨none, rfl, rfl, fun _ u hu => by cases hu; exact hkind⟩
  · rintro ⟨l, rfl, rfl, hother⟩
    cases l with
    | none =>
      cases rest with
      | nil => rfl
      | cons t rest =>
        show lifetime (t :: rest) = _
        rw [lifetime, if_neg (hother rfl t rfl)]
        rfl
    | some l =>
      obtain ⟨hne, hdigits⟩ := hnum l.1 (by simp) l.2.1
      show lifetime (l.1 :: rest) = _
      rw [lifetime, if_pos l.2.1, Numeral.read_eq hne hdigits (by decide), hsize, if_pos l.2.2]
      simp [ofMillis_ofNat_value]

/-- A lifetime ends a clause exactly when nothing else is left of it. -/
lemma lifetime_eq_ok_nil_iff {tokens : Remainder} (hnum : Numbered tokens)
    {ttl : Option Duration} :
    lifetime tokens = .ok (ttl, []) ↔
      ∃ l : Option Lifetime, tokens = (l.map Subtype.val).toList ∧
        ttl = l.map Lifetime.duration := by
  have hhead : Numbered tokens.head?.toList := fun t ht =>
    hnum t (List.mem_of_mem_head? (Option.mem_toList.1 ht))
  simp [lifetime_eq_ok_iff hhead]

/-! ## Clauses and phrases -/

/-- The rest of a clause is the rest of a phrase with its keyword. -/
lemma body_eq_ok_iff (stop : Token) {t : Token} {k : Keyword} (ht : t.kind = .keyword k)
    {tokens : Remainder} (hnum : Numbered tokens) {s : Statement} :
    body stop tokens k = .ok s ↔ ∃ p : Phrase, p.tokens = t :: tokens ∧ p.statement = s := by
  constructor
  · intro h
    cases k with
    | set =>
      simp only [body, bind_eq_ok_iff, Prod.exists, demandKey_eq_ok_iff,
        demandValue_eq_ok_iff, finish_eq_ok_iff] at h
      obtain ⟨_, _, ⟨key, rfl, rfl⟩, _, rest, ⟨value, rfl, rfl⟩, ttl, _, httl, rfl, rfl⟩ := h
      have hrest : Numbered rest := fun u hu => hnum u (by simp [hu])
      obtain ⟨l, rfl, rfl⟩ := (lifetime_eq_ok_nil_iff hrest).1 httl
      exact ⟨.set ⟨t, ht⟩ key value l, rfl, rfl⟩
    | get =>
      simp only [body, bind_eq_ok_iff, Prod.exists, finish_eq_ok_iff] at h
      obtain ⟨keys, _, hkeys, rfl, rfl⟩ := h
      obtain ⟨first, others, rfl, rfl⟩ := demandKeys_eq_ok_nil_iff.1 hkeys
      exact ⟨.get ⟨t, ht⟩ first others, rfl, rfl⟩
    | del =>
      simp only [body, bind_eq_ok_iff, Prod.exists, finish_eq_ok_iff] at h
      obtain ⟨keys, _, hkeys, rfl, rfl⟩ := h
      obtain ⟨first, others, rfl, rfl⟩ := demandKeys_eq_ok_nil_iff.1 hkeys
      exact ⟨.delete ⟨t, ht⟩ first others, rfl, rfl⟩
    | auth =>
      simp only [body, bind_eq_ok_iff, Prod.exists, demandKey_eq_ok_iff,
        demandValue_eq_ok_iff, finish_eq_ok_iff] at h
      obtain ⟨_, _, ⟨username, rfl, rfl⟩, _, _, ⟨password, rfl, rfl⟩, rfl, rfl⟩ := h
      exact ⟨.auth ⟨t, ht⟩ username password, rfl, rfl⟩
  · rintro ⟨p, htokens, rfl⟩
    cases p with
    | set lead key value l =>
      obtain ⟨rfl, rfl⟩ := List.cons.inj htokens
      obtain rfl : Keyword.set = k := by simpa using lead.2.symm.trans ht
      simp only [body, bind_eq_ok_iff, Prod.exists, demandKey_eq_ok_iff,
        demandValue_eq_ok_iff, finish_eq_ok_iff]
      have hrest : Numbered (l.map Subtype.val).toList := fun u hu =>
        hnum u (List.mem_append_right _ hu)
      exact ⟨_, _, ⟨key, rfl, rfl⟩, _, _, ⟨value, rfl, rfl⟩, _, _,
        (lifetime_eq_ok_nil_iff hrest).2 ⟨l, rfl, rfl⟩, rfl, rfl⟩
    | get lead first others =>
      obtain ⟨rfl, rfl⟩ := List.cons.inj htokens
      obtain rfl : Keyword.get = k := by simpa using lead.2.symm.trans ht
      simp only [body, bind_eq_ok_iff, Prod.exists, finish_eq_ok_iff]
      exact ⟨_, _, demandKeys_eq_ok_nil_iff.2 ⟨first, others, rfl, rfl⟩, rfl, rfl⟩
    | delete lead first others =>
      obtain ⟨rfl, rfl⟩ := List.cons.inj htokens
      obtain rfl : Keyword.del = k := by simpa using lead.2.symm.trans ht
      simp only [body, bind_eq_ok_iff, Prod.exists, finish_eq_ok_iff]
      exact ⟨_, _, demandKeys_eq_ok_nil_iff.2 ⟨first, others, rfl, rfl⟩, rfl, rfl⟩
    | auth lead username password =>
      obtain ⟨rfl, rfl⟩ := List.cons.inj htokens
      obtain rfl : Keyword.auth = k := by simpa using lead.2.symm.trans ht
      simp only [body, bind_eq_ok_iff, Prod.exists, demandKey_eq_ok_iff,
        demandValue_eq_ok_iff, finish_eq_ok_iff]
      exact ⟨_, _, ⟨username, rfl, rfl⟩, _, _, ⟨password, rfl, rfl⟩, rfl, rfl⟩

/-- A clause is a statement exactly when it is a phrase that means it. -/
lemma statement_eq_ok_iff {c : Clause} (hnum : Numbered c.tokens) {s : Statement} :
    c.statement = .ok s ↔ ∃ p : Phrase, p.tokens = c.tokens ∧ p.statement = s := by
  obtain ⟨tokens, stop⟩ := c
  cases tokens with
  | nil =>
    simp only [statement, reduceCtorEq, false_iff]
    rintro ⟨p, htokens, -⟩
    obtain ⟨u, rest, hcons, -⟩ := p.exists_tokens_eq_cons
    simp [hcons] at htokens
  | cons t rest =>
    by_cases ht : ∃ k, t.kind = .keyword k
    · obtain ⟨k, ht⟩ := ht
      have hrest : Numbered rest := fun u hu => hnum u (by simp [hu])
      rw [← body_eq_ok_iff stop ht hrest]
      simp [statement, ht]
    · have herror : (⟨t :: rest, stop⟩ : Clause).statement =
          .error (.unexpected t .statement) := by
        simp only [statement]
        split
        · rename_i k hk
          exact absurd ⟨k, hk⟩ ht
        · rfl
      rw [herror]
      simp only [reduceCtorEq, false_iff]
      rintro ⟨p, htokens, -⟩
      obtain ⟨u, rest', hcons, hkind⟩ := p.exists_tokens_eq_cons
      rw [hcons] at htokens
      obtain ⟨rfl, -⟩ := List.cons.inj htokens
      exact ht ⟨_, hkind⟩

/-! ## Cutting tokens into clauses -/

lemma split_append {last t : Token} {tokens : List Token} (h : Unbroken tokens)
    (ht : t.kind = .terminator) (rest : List Token) :
    split last (tokens ++ t :: rest) = ⟨tokens, t⟩ :: split last rest := by
  induction tokens with
  | nil => simp [split, prepend, ht]
  | cons u tokens ih =>
    obtain ⟨hu, htokens⟩ := List.forall_mem_cons.1 h
    show prepend last u (split last (tokens ++ t :: rest)) = _
    rw [ih htokens]
    simp [prepend, hu]

lemma split_unbroken {last : Token} {tokens : List Token} (h : Unbroken tokens)
    (hne : tokens ≠ []) : split last tokens = [⟨tokens, last⟩] := by
  induction tokens with
  | nil => exact absurd rfl hne
  | cons u tokens ih =>
    obtain ⟨hu, htokens⟩ := List.forall_mem_cons.1 h
    cases tokens with
    | nil => simp [split, prepend, hu]
    | cons v tokens =>
      show prepend last u (split last (v :: tokens)) = _
      rw [ih htokens (by simp)]
      simp [prepend, hu]

/-- Tokens hold a first semicolon, or none. -/
lemma unbroken_or_split (tokens : List Token) :
    Unbroken tokens ∨ ∃ front t rest, tokens = front ++ t :: rest ∧ Unbroken front ∧
      t.kind = .terminator := by
  induction tokens with
  | nil => exact .inl (by simp [Unbroken])
  | cons u tokens ih =>
    by_cases hu : u.kind = .terminator
    · exact .inr ⟨[], u, tokens, rfl, by simp [Unbroken], hu⟩
    · rcases ih with h | ⟨front, t, rest, rfl, hfront, ht⟩
      · exact .inl (List.forall_mem_cons.2 ⟨hu, h⟩)
      · exact .inr ⟨u :: front, t, rest, rfl, List.forall_mem_cons.2 ⟨hu, hfront⟩, ht⟩

lemma mapM_statement_cons_eq_ok_iff {c : Clause} {cs : List Clause} {ast : List Statement} :
    (c :: cs).mapM statement = .ok ast ↔
      ∃ s rest, c.statement = .ok s ∧ cs.mapM statement = .ok rest ∧ ast = s :: rest := by
  simp only [List.mapM_cons, bind_eq_ok_iff, pure, Except.pure, Except.ok.injEq]
  constructor
  · rintro ⟨s, hs, rest, hrest, rfl⟩
    exact ⟨s, rest, hs, hrest, rfl⟩
  · rintro ⟨s, rest, hs, hrest, rfl⟩
    exact ⟨s, hs, rest, hrest, rfl⟩

lemma exists_program_of_mapM_statement {last : Token} {tokens : List Token}
    (hnum : Numbered tokens) (hne : tokens ≠ []) {ast : List Statement}
    (h : (split last tokens).mapM statement = .ok ast) :
    ∃ p : Program, p.tokens = tokens ∧ p.statements = ast := by
  rcases unbroken_or_split tokens with hun | ⟨front, t, rest, rfl, hun, ht⟩
  · rw [split_unbroken hun hne, mapM_statement_cons_eq_ok_iff] at h
    obtain ⟨s, _, hs, hnil, rfl⟩ := h
    obtain ⟨p, hp, rfl⟩ := (statement_eq_ok_iff hnum).1 hs
    obtain rfl : _ = [] := by simpa [pure, Except.pure] using hnil.symm
    exact ⟨⟨p, [], none⟩, by rw [Program.tokens_single, hp], rfl⟩
  · rw [split_append hun ht, mapM_statement_cons_eq_ok_iff] at h
    obtain ⟨s, others, hs, hrest, rfl⟩ := h
    have hfront : Numbered front := fun u hu => hnum u (by simp [hu])
    obtain ⟨p, hp, rfl⟩ := (statement_eq_ok_iff (c := ⟨front, t⟩) hfront).1 hs
    simp only at hp
    by_cases hnil : rest = []
    · subst hnil
      obtain rfl : others = [] := by simpa [split, pure, Except.pure] using hrest.symm
      exact ⟨⟨p, [], some ⟨t, ht⟩⟩, by rw [Program.tokens_ended, hp], rfl⟩
    · have hrest' : Numbered rest := fun u hu => hnum u (by simp [hu])
      obtain ⟨q, rfl, rfl⟩ := exists_program_of_mapM_statement hrest' hnil hrest
      exact ⟨.cons p ⟨t, ht⟩ q, by rw [Program.tokens_cons, hp], rfl⟩
termination_by tokens.length
decreasing_by simp_all; omega

lemma mapM_statement_program {last : Token} (p : Program) (hnum : Numbered p.tokens) :
    (split last p.tokens).mapM statement = .ok p.statements := by
  have hphrase {q : Phrase} {stop : Token} (hq : Numbered q.tokens) :
      (⟨q.tokens, stop⟩ : Clause).statement = .ok q.statement :=
    (statement_eq_ok_iff hq).2 ⟨q, rfl, rfl⟩
  induction p using Program.cons_induction with
  | single first semicolon =>
    have hfirst : Numbered first.tokens := fun u hu => hnum u (by simp [Program.tokens, hu])
    cases semicolon with
    | none =>
      have hne : first.tokens ≠ [] := Program.tokens_single first ▸ Program.tokens_ne_nil _
      rw [Program.tokens_single, split_unbroken first.unbroken_tokens hne,
        mapM_statement_cons_eq_ok_iff]
      exact ⟨_, [], hphrase hfirst, rfl, rfl⟩
    | some t =>
      rw [Program.tokens_ended, split_append first.unbroken_tokens t.2,
        mapM_statement_cons_eq_ok_iff]
      exact ⟨_, [], hphrase hfirst, rfl, rfl⟩
  | cons first semicolon p ih =>
    rw [Program.tokens_cons] at hnum ⊢
    have hfirst : Numbered first.tokens := fun u hu => hnum u (by simp [hu])
    have hrest : Numbered p.tokens := fun u hu => hnum u (by simp [hu])
    rw [split_append first.unbroken_tokens semicolon.2, mapM_statement_cons_eq_ok_iff]
    exact ⟨_, _, hphrase hfirst, ih hrest, rfl⟩

end Clause

/-- **The parser accepts exactly its grammar.**  A text is parsed to statements exactly when it has
tokens, and these are none and so are the statements, or a derivation yields the tokens and means
the statements.  No two derivations yield the same tokens. -/
theorem parse_eq_ok_iff_derivation (text : String) (ast : List Statement) :
    (parse text = .ok ast ↔ ∃ l, tokenize text = .ok l ∧
      (l.tokens = [] ∧ ast = [] ∨ ∃ p : Program, p.tokens = l.tokens ∧ p.statements = ast)) ∧
    Function.Injective Program.tokens := by
  refine ⟨?_, Program.tokens_injective⟩
  unfold parse
  cases hl : tokenize text with
  | error e => simp
  | ok l =>
    have hnum := numbered_of_tokenize hl
    simp only [Except.ok.injEq, exists_eq_left', Lexed.clauses]
    constructor
    · intro h
      by_cases hne : l.tokens = []
      · left
        refine ⟨hne, ?_⟩
        rw [hne] at h
        simpa [Clause.split, pure, Except.pure] using h.symm
      · exact .inr (Clause.exists_program_of_mapM_statement hnum hne h)
    · rintro (⟨hnil, rfl⟩ | ⟨p, htokens, rfl⟩)
      · rw [hnil]
        rfl
      · rw [← htokens] at hnum ⊢
        exact Clause.mapM_statement_program p hnum

end ExpiringStore
