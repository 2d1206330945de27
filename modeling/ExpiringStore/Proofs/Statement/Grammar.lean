import ExpiringStore.Proofs.Text.Numeral
import ExpiringStore.Proofs.Token.Layout
import ExpiringStore.Statement.Parser

/-!
# The grammar of requests

A derivation of a request is data: a phrase for each statement, with a token in every place that the
grammar names, and the semicolons between them.  The types of the places hold just the tokens that
may stand there, so every derivation is one of the grammar

* `program := statement (';' statement)* ';'?`
* `statement := SET KEY value [NUMBER] | GET KEY+ | DEL KEY+ | AUTH KEY value`
* `KEY := IDENT | NUMBER`
* `value := STRING | IDENT | NUMBER`

where a `NUMBER` that is a lifetime is below `2 ^ 64`.  A derivation yields tokens, and it means
statements.  The tokens determine it (`Program.tokens_injective`): a phrase is known by its keyword
and the number of its tokens, and holds no semicolon, so semicolons mark where phrases end.
-/

namespace ExpiringStore.Grammar

/-! ## Places -/

/-- `KEY` -/
abbrev Key := { t : Token // t.kind = .identifier ∨ t.kind = .number }

/-- `value` -/
abbrev Value := { t : Token // t.kind = .string ∨ t.kind = .identifier ∨ t.kind = .number }

/-- A `NUMBER` that is a lifetime in milliseconds. -/
abbrev Lifetime := { t : Token // t.kind = .number ∧ Numeral.value t.literal.toList < 2 ^ 64 }

/-- The keyword `k` in front of a statement. -/
abbrev Lead (k : Keyword) := { t : Token // t.kind = .keyword k }

/-- `';'` -/
abbrev Semicolon := { t : Token // t.kind = .terminator }

/-- As many milliseconds as the number says. -/
def Lifetime.duration (t : Lifetime) : Duration :=
  ⟨Numeral.value t.1.literal.toList * nanosPerMilli, by
    have := t.2.2
    simp only [UInt64.size, nanosPerMilli, nanosPerSecond]
    omega⟩

/-! ## Derivations -/

/-- A derivation of one statement. -/
inductive Phrase where
  | set (lead : Lead .set) (key : Key) (value : Value) (lifetime : Option Lifetime)
  | get (lead : Lead .get) (first : Key) (others : List Key)
  | delete (lead : Lead .del) (first : Key) (others : List Key)
  | auth (lead : Lead .auth) (username : Key) (password : Value)

namespace Phrase

/-- The tokens of a statement. -/
def tokens : Phrase → List Token
  | set lead key value lifetime =>
    [lead.1, key.1, value.1] ++ (lifetime.map Subtype.val).toList
  | get lead first others => lead.1 :: first.1 :: others.map Subtype.val
  | delete lead first others => lead.1 :: first.1 :: others.map Subtype.val
  | auth lead username password => [lead.1, username.1, password.1]

/-- What a statement means. -/
def statement : Phrase → Statement
  | set _ key value lifetime =>
    .set key.1.literal value.1.literal (lifetime.map Lifetime.duration)
  | get _ first others => .get (first.1.literal :: others.map (·.1.literal))
  | delete _ first others => .delete (first.1.literal :: others.map (·.1.literal))
  | auth _ username password => .auth username.1.literal password.1.literal

end Phrase

/-- A derivation of a request with at least one statement. -/
structure Program where
  /-- The first statement. -/
  first : Phrase
  /-- The other statements, each with the semicolon in front of it. -/
  others : List (Semicolon × Phrase)
  /-- The semicolon at the end, if there is one. -/
  last : Option Semicolon

namespace Program

/-- The tokens of a request. -/
def tokens (p : Program) : List Token :=
  p.first.tokens ++ p.others.flatMap (fun o => o.1.1 :: o.2.tokens) ++
    (p.last.map Subtype.val).toList

/-- What a request means. -/
def statements (p : Program) : List Statement :=
  p.first.statement :: p.others.map (·.2.statement)

end Program

/-! ## The tokens determine the derivation -/

private lemma map_val_inj {p : Token → Prop} {xs ys : List { t // p t }}
    (h : xs.map Subtype.val = ys.map Subtype.val) : xs = ys :=
  List.map_injective_iff.2 Subtype.val_injective h

private lemma toList_map_val_inj {p : Token → Prop} {x y : Option { t // p t }}
    (h : (x.map Subtype.val).toList = (y.map Subtype.val).toList) : x = y := by
  cases x <;> cases y <;> simp_all [Subtype.ext_iff]

/-- The keyword in front of a phrase. -/
def Phrase.keyword : Phrase → Keyword
  | set .. => .set
  | get .. => .get
  | delete .. => .del
  | auth .. => .auth

lemma Phrase.exists_tokens_eq_cons (p : Phrase) :
    ∃ t rest, p.tokens = t :: rest ∧ t.kind = .keyword p.keyword := by
  cases p with
  | set lead => exact ⟨lead.1, _, rfl, lead.2⟩
  | get lead => exact ⟨lead.1, _, rfl, lead.2⟩
  | delete lead => exact ⟨lead.1, _, rfl, lead.2⟩
  | auth lead => exact ⟨lead.1, _, rfl, lead.2⟩

lemma Phrase.keyword_eq_of_tokens_eq {p q : Phrase} (h : p.tokens = q.tokens) :
    p.keyword = q.keyword := by
  obtain ⟨t, rest, hp, hkind⟩ := p.exists_tokens_eq_cons
  obtain ⟨u, rest', hq, hkind'⟩ := q.exists_tokens_eq_cons
  rw [hp, hq] at h
  obtain ⟨rfl, -⟩ := List.cons.inj h
  simpa using hkind.symm.trans hkind'

lemma Phrase.tokens_injective : Function.Injective Phrase.tokens := by
  intro p q h
  have hkeyword := keyword_eq_of_tokens_eq h
  cases p with
  | set lead key value lifetime =>
    cases q with
    | set lead' key' value' lifetime' =>
      simp only [tokens, List.cons_append, List.nil_append, List.cons.injEq] at h
      obtain ⟨hlead, hkey, hvalue, hlifetime⟩ := h
      rw [Subtype.ext hlead, Subtype.ext hkey, Subtype.ext hvalue, toList_map_val_inj hlifetime]
    | _ => cases hkeyword
  | get lead first others =>
    cases q with
    | get lead' first' others' =>
      simp only [tokens, List.cons.injEq] at h
      obtain ⟨hlead, hfirst, hothers⟩ := h
      rw [Subtype.ext hlead, Subtype.ext hfirst, map_val_inj hothers]
    | _ => cases hkeyword
  | delete lead first others =>
    cases q with
    | delete lead' first' others' =>
      simp only [tokens, List.cons.injEq] at h
      obtain ⟨hlead, hfirst, hothers⟩ := h
      rw [Subtype.ext hlead, Subtype.ext hfirst, map_val_inj hothers]
    | _ => cases hkeyword
  | auth lead username password =>
    cases q with
    | auth lead' username' password' =>
      simp only [tokens, List.cons.injEq, and_true] at h
      obtain ⟨hlead, husername, hpassword⟩ := h
      rw [Subtype.ext hlead, Subtype.ext husername, Subtype.ext hpassword]
    | _ => cases hkeyword

/-- A run of tokens without a semicolon. -/
def Unbroken (tokens : List Token) : Prop := ∀ t ∈ tokens, t.kind ≠ .terminator

lemma Key.kind_ne (k : Key) : k.1.kind ≠ .terminator := by
  rcases k.2 with h | h <;> simp [h]

lemma Value.kind_ne (v : Value) : v.1.kind ≠ .terminator := by
  rcases v.2 with h | h | h <;> simp [h]

lemma Lead.kind_ne {k : Keyword} (t : Lead k) : t.1.kind ≠ .terminator := by
  simp [t.2]

lemma Phrase.unbroken_tokens (p : Phrase) : Unbroken p.tokens := by
  have hkeys (keys : List Key) : Unbroken (keys.map Subtype.val) := by
    intro t ht
    obtain ⟨k, -, rfl⟩ := List.mem_map.1 ht
    exact Key.kind_ne k
  cases p with
  | set lead key value lifetime =>
    cases lifetime with
    | none => simp [Unbroken, tokens, lead.kind_ne, key.kind_ne, value.kind_ne]
    | some l => simp [Unbroken, tokens, lead.kind_ne, key.kind_ne, value.kind_ne, l.2.1]
  | get lead first others =>
    exact List.forall_mem_cons.2 ⟨lead.kind_ne, List.forall_mem_cons.2 ⟨first.kind_ne, hkeys _⟩⟩
  | delete lead first others =>
    exact List.forall_mem_cons.2 ⟨lead.kind_ne, List.forall_mem_cons.2 ⟨first.kind_ne, hkeys _⟩⟩
  | auth lead username password =>
    simp [Unbroken, tokens, lead.kind_ne, username.kind_ne, password.kind_ne]

/-- A run that ends at the first semicolon, or at the end of the tokens, is determined. -/
lemma Unbroken.append_inj {a b x y : List Token} (ha : Unbroken a) (hb : Unbroken b)
    (hx : ∀ t ∈ x.head?, t.kind = .terminator) (hy : ∀ t ∈ y.head?, t.kind = .terminator)
    (h : a ++ x = b ++ y) : a = b ∧ x = y := by
  induction a generalizing b with
  | nil =>
    cases b with
    | nil => exact ⟨rfl, h⟩
    | cons t b =>
      have := hx t (by simp only [List.nil_append] at h; simp [h])
      exact absurd this (hb t (by simp))
  | cons t a ih =>
    cases b with
    | nil =>
      have := hy t (by simp only [List.nil_append] at h; simp [← h])
      exact absurd this (ha t (by simp))
    | cons u b =>
      simp only [List.cons_append, List.cons.injEq] at h
      obtain ⟨rfl, h⟩ := h
      obtain ⟨rfl, rfl⟩ := ih (List.forall_mem_cons.1 ha).2 (List.forall_mem_cons.1 hb).2 h
      exact ⟨rfl, rfl⟩

namespace Program

lemma tokens_single (first : Phrase) : (⟨first, [], none⟩ : Program).tokens = first.tokens := by
  simp [tokens]

lemma tokens_ended (first : Phrase) (semicolon : Semicolon) :
    (⟨first, [], some semicolon⟩ : Program).tokens = first.tokens ++ [semicolon.1] := by
  simp [tokens]

/-- A request with a statement and a semicolon put in front. -/
def cons (first : Phrase) (semicolon : Semicolon) (p : Program) : Program :=
  ⟨first, (semicolon, p.first) :: p.others, p.last⟩

@[simp] lemma tokens_cons (first : Phrase) (semicolon : Semicolon) (p : Program) :
    (cons first semicolon p).tokens = first.tokens ++ semicolon.1 :: p.tokens := by
  simp [cons, tokens]

/-- A request is one statement, with or without a semicolon, or has a statement in front. -/
@[elab_as_elim] lemma cons_induction {motive : Program → Prop}
    (single : ∀ first last, motive ⟨first, [], last⟩)
    (cons : ∀ first semicolon p, motive p → motive (cons first semicolon p)) (p : Program) :
    motive p := by
  obtain ⟨first, others, last⟩ := p
  induction others generalizing first with
  | nil => exact single first last
  | cons o others ih => exact cons first o.1 ⟨o.2, others, last⟩ (ih o.2)

lemma tokens_ne_nil (p : Program) : p.tokens ≠ [] := by
  obtain ⟨t, rest, h, -⟩ := p.first.exists_tokens_eq_cons
  simp [tokens, h]

/-- **Derivations are unique.** -/
lemma tokens_injective : Function.Injective tokens := by
  intro p q h
  have hlast (last : Option Semicolon) :
      ∀ t ∈ ((last.map Subtype.val).toList).head?, t.kind = .terminator := by
    cases last with
    | none => simp
    | some t => simpa using t.2
  induction p using cons_induction generalizing q with
  | single first last =>
    cases q using cons_induction with
    | single first' last' =>
      simp only [tokens, List.flatMap_nil, List.append_nil] at h
      obtain ⟨hfirst, hlast'⟩ := first.unbroken_tokens.append_inj first'.unbroken_tokens
        (hlast last) (hlast last') h
      rw [Phrase.tokens_injective hfirst, toList_map_val_inj hlast']
    | cons first' semicolon' q =>
      rw [tokens_cons] at h
      simp only [tokens, List.flatMap_nil, List.append_nil] at h
      obtain ⟨-, hrest⟩ := first.unbroken_tokens.append_inj first'.unbroken_tokens
        (hlast last) (by simpa using semicolon'.2) h
      cases last with
      | none => simp at hrest
      | some t => exact absurd (List.cons.inj hrest).2.symm q.tokens_ne_nil
  | cons first semicolon p ih =>
    cases q using cons_induction with
    | single first' last' =>
      rw [tokens_cons] at h
      simp only [tokens, List.flatMap_nil, List.append_nil] at h
      obtain ⟨-, hrest⟩ := first.unbroken_tokens.append_inj first'.unbroken_tokens
        (by simpa using semicolon.2) (hlast last') h
      cases last' with
      | none => simp at hrest
      | some t => exact absurd (List.cons.inj hrest).2 p.tokens_ne_nil
    | cons first' semicolon' q =>
      rw [tokens_cons, tokens_cons] at h
      obtain ⟨hfirst, hrest⟩ := first.unbroken_tokens.append_inj first'.unbroken_tokens
        (by simpa using semicolon.2) (by simpa using semicolon'.2) h
      obtain ⟨hsemicolon, hrest⟩ := List.cons.inj hrest
      rw [Phrase.tokens_injective hfirst, Subtype.ext hsemicolon, ih hrest]

end Program

end ExpiringStore.Grammar
