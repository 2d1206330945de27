import ExpiringStore.Proofs.Statement.Derivation
import ExpiringStore.Proofs.Token.Pieces

/-!
# Requests as sequences of tokens

What a request means depends on its tokens alone, and whether it means anything does not depend on
where it ends.  `parseTokens` is the parser on a sequence of tokens with the token that closes the
request, and `Parses` says that a sequence can be parsed.  A sequence as it can come from a text
parses exactly when it is empty or a derivation of the grammar yields it (`parses_iff_derived`).
-/

namespace ExpiringStore

open Grammar

/-- The statements that tokens are, when the token `stop` follows them. -/
def parseTokens (stop : Token) (tokens : List Token) : Except ParseError (List Statement) :=
  (Clause.split stop tokens).mapM Clause.statement

/-- Tokens can be parsed when the end of the input follows them. -/
def Parses (tokens : List Token) : Prop :=
  ∃ p ast, parseTokens (.endAt p) tokens = .ok ast

lemma parse_of_tokenize {text : String} {l : Lexed} (hl : tokenize text = .ok l) :
    parse text = parseTokens l.last l.tokens := by
  rw [parse, hl]
  rfl

/-! ## Numbers -/

lemma Token.Proper.digits {t : Token} (h : t.Proper) (hkind : t.kind = .number) :
    t.literal.toList ≠ [] ∧ ∀ c ∈ t.literal.toList, c.isDigit = true := by
  have hword : t.IsWord := by simp [Token.IsWord, hkind]
  refine ⟨(h.wellFormed.word hword).1, ?_⟩
  rw [← Utf8.forall_mem_encode_digit_iff]
  exact (h.wellFormed.number hword).1 hkind

lemma Numbered.of_proper {tokens : List Token} (h : ∀ t ∈ tokens, t.Proper) : Numbered tokens :=
  fun t ht => (h t ht).digits

lemma Numbered.append {a b : List Token} (ha : Numbered a) (hb : Numbered b) :
    Numbered (a ++ b) := by
  intro t ht
  rcases List.mem_append.1 ht with hta | htb
  · exact ha t hta
  · exact hb t htb

lemma Numbered.of_append {a b : List Token} (h : Numbered (a ++ b)) : Numbered a ∧ Numbered b :=
  ⟨fun t ht => h t (List.mem_append_left b ht), fun t ht => h t (List.mem_append_right a ht)⟩

/-! ## Derivations -/

/-- Tokens that are none, or that a derivation of the grammar yields. -/
def Derived (tokens : List Token) : Prop := tokens = [] ∨ ∃ p : Program, p.tokens = tokens

lemma parseTokens_eq_ok_iff {stop : Token} {tokens : List Token} (hnum : Numbered tokens)
    {ast : List Statement} :
    parseTokens stop tokens = .ok ast ↔
      tokens = [] ∧ ast = [] ∨ ∃ p : Program, p.tokens = tokens ∧ p.statements = ast := by
  constructor
  · intro h
    by_cases hnil : tokens = []
    · subst hnil
      exact .inl ⟨rfl, (Except.ok.inj h).symm⟩
    · exact .inr (Clause.exists_program_of_mapM_statement hnum hnil h)
  · rintro (⟨rfl, rfl⟩ | ⟨p, rfl, rfl⟩)
    · rfl
    · exact Clause.mapM_statement_program p hnum

/-- What tokens mean does not depend on what closes them. -/
lemma toOption_parseTokens {tokens : List Token} (hnum : Numbered tokens) (stop stop' : Token) :
    (parseTokens stop tokens).toOption = (parseTokens stop' tokens).toOption := by
  have hiff (ast : List Statement) :
      parseTokens stop tokens = .ok ast ↔ parseTokens stop' tokens = .ok ast :=
    (parseTokens_eq_ok_iff hnum).trans (parseTokens_eq_ok_iff hnum).symm
  cases h : parseTokens stop tokens with
  | ok ast => rw [(hiff ast).1 h]
  | error e =>
    cases h' : parseTokens stop' tokens with
    | ok ast =>
      rw [(hiff ast).2 h'] at h
      cases h
    | error e' => rfl

lemma parses_iff_derived {tokens : List Token} (hnum : Numbered tokens) :
    Parses tokens ↔ Derived tokens := by
  constructor
  · rintro ⟨p, ast, h⟩
    rcases (parseTokens_eq_ok_iff hnum).1 h with ⟨hnil, -⟩ | ⟨q, hq, -⟩
    · exact .inl hnil
    · exact .inr ⟨q, hq⟩
  · rintro (rfl | ⟨q, rfl⟩)
    · exact ⟨.start, [], rfl⟩
    · exact ⟨.start, q.statements, Clause.mapM_statement_program q hnum⟩

namespace Derived

lemma of_phrase (p : Phrase) : Derived p.tokens := .inr ⟨⟨p, [], none⟩, Program.tokens_single p⟩

lemma phrase_append (p : Phrase) (semicolon : Semicolon) {rest : List Token} (h : Derived rest) :
    Derived (p.tokens ++ semicolon.1 :: rest) := by
  rcases h with rfl | ⟨q, rfl⟩
  · exact .inr ⟨⟨p, [], some semicolon⟩, Program.tokens_ended p semicolon⟩
  · exact .inr ⟨.cons p semicolon q, Program.tokens_cons p semicolon q⟩

end Derived

end ExpiringStore
