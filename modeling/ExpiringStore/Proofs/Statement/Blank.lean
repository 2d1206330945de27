import ExpiringStore.Proofs.Statement.Tokens
import ExpiringStore.Proofs.Token.Joined
import ExpiringStore.Proofs.Token.Quotes

/-!
# Blanks and requests

A text means no statements exactly when it is blank (`parse_eq_ok_nil_iff`): every other text has a
token, and then it has a statement or an error.

Blanks behind a text change nothing but the place where it ends.  They add no token and no quote, so
the text with them has the same tokens, or is unclosed at the same quote; and it has the same
statements, or none (`toOption_parse_append`).  The error can be another one, since it can name the
end of the text.
-/

namespace ExpiringStore

lemma tokenize_of_blanks {text : String} (h : Blanks text.toList) :
    tokenize text = .ok ⟨[], .after text.toList⟩ := by
  have hscan := Cursor.scan_finished h (.after [])
  rw [Position.advanceOver_after, List.nil_append] at hscan
  exact Cursor.tokenizeAfter_of_finished hscan []

/-- **Only a blank text means no statements.** -/
theorem parse_eq_ok_nil_iff {text : String} : parse text = .ok [] ↔ Blanks text.toList := by
  constructor
  · intro h
    cases hl : tokenize text with
    | error e =>
      rw [parse, hl] at h
      cases h
    | ok l =>
      rw [parse_of_tokenize hl, parseTokens_eq_ok_iff (numbered_of_tokenize hl)] at h
      rcases h with ⟨hnil, -⟩ | ⟨p, -, hstatements⟩
      · obtain ⟨-, hspaced⟩ := proper_of_tokenize hl
        rw [hnil] at hspaced
        generalize htext : text.toList = cs at hspaced
        cases hspaced with
        | nil hgap => exact hgap
      · cases hstatements
  · intro h
    rw [parse_of_tokenize (tokenize_of_blanks h)]
    rfl

/-! ## Blanks at the end -/

variable {gap : String}

lemma tokenize_append_of_ok (hgap : Blanks gap.toList) {text : String} {l : Lexed}
    (hl : tokenize text = .ok l) :
    ∃ stop, tokenize (text ++ gap) = .ok ⟨l.tokens, stop⟩ := by
  have hjoint : ∀ t ∈ l.tokens.getLast?, t.IsWord → EndsWord gap.toList :=
    fun _ _ _ c hc => isWordChar_of_isBlank (hgap c (List.mem_of_mem_head? hc))
  have hread := tokenize_append hl gap hjoint
  rw [tokenize_of_blanks hgap] at hread
  simp only [List.map_nil, List.append_nil] at hread
  exact ⟨_, hread⟩

lemma tokenize_append_of_error (hgap : Blanks gap.toList) {text : String} {e : LexError}
    (he : tokenize text = .error e) : tokenize (text ++ gap) = .error e := by
  obtain ⟨front, ⟨after, htext, hafter, heven⟩, rfl⟩ := tokenize_eq_error_iff.1 he
  refine tokenize_eq_error_iff.2 ⟨front, ⟨after ++ gap.toList, ?_, ?_, heven⟩, rfl⟩
  · rw [String.toList_append, htext, List.append_assoc]
    rfl
  · have hnone : '"' ∉ gap.toList := List.count_eq_zero.1 hgap.count_quote
    rw [List.mem_append, not_or]
    exact ⟨hafter, hnone⟩

/-- **Blanks behind a text** do not change what it means. -/
theorem toOption_parse_append (hgap : Blanks gap.toList) (text : String) :
    (parse (text ++ gap)).toOption = (parse text).toOption := by
  cases hl : tokenize text with
  | error e => rw [parse, parse, hl, tokenize_append_of_error hgap hl]
  | ok l =>
    obtain ⟨stop, hstop⟩ := tokenize_append_of_ok hgap hl
    rw [parse_of_tokenize hl, parse_of_tokenize hstop]
    exact toOption_parseTokens (numbered_of_tokenize hl) _ _

end ExpiringStore
