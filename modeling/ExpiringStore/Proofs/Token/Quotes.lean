import ExpiringStore.Database.Plain
import ExpiringStore.Database.Recorded
import ExpiringStore.Proofs.Token.Layout
import ExpiringStore.Request.Run
import Mathlib.Algebra.Group.Nat.Even

/-!
# Quotes in pairs

A quote opens a string wherever it stands, within a word or next to a semicolon too, and the next
quote closes it.  So the quotes of a text are used up in pairs from the front, and a text cannot be
read as tokens exactly when one quote is left over.  That is the last one, and the error stands
there (`tokenize_eq_error_iff`).

What is before that quote makes no difference.  A request is cut into tokens before any of them is
looked at, so a mistake in the grammar further in front is not found any more.
-/

namespace ExpiringStore

/-- `Dangling front cs`: the last quote of `cs` stands behind `front` and is left over when the
quotes before it are used up in pairs. -/
def Dangling (front cs : List Char) : Prop :=
  ∃ after, cs = front ++ '"' :: after ∧ '"' ∉ after ∧ Even (front.count '"')

/-! ## Quotes in one token -/

lemma Blanks.count_quote {gap : List Char} (hgap : Blanks gap) : gap.count '"' = 0 := by
  rw [List.count_eq_zero]
  intro hmem
  have hblank : isBlank '"' = false := by decide
  rw [hgap _ hmem] at hblank
  cases hblank

lemma WordChars.count_quote {word : List Char} (hword : WordChars word) :
    word.count '"' = 0 := by
  rw [List.count_eq_zero]
  intro hmem
  exact (isWordChar_iff.1 (hword.2 _ hmem)).2.1 rfl

/-- A token has both quotes of a string or none. -/
lemma Token.WellFormed.even_count_quote {t : Token} (h : t.WellFormed)
    (hkind : t.kind ≠ .endOfInput) : Even (t.span.count '"') := by
  by_cases hstring : t.kind = .string
  · have hbody : t.literal.toList.count '"' = 0 := List.count_eq_zero.2 (h.string hstring)
    rw [span, if_pos hstring, List.count_append, List.count_cons_self, hbody]
    exact even_two
  · rw [span, if_neg hstring]
    by_cases hterminator : t.kind = .terminator
    · rw [h.terminator hterminator]
      decide
    · rw [(h.word ⟨hstring, hterminator, hkind⟩).count_quote]
      exact Even.zero

/-! ## Quotes in a text -/

lemma Dangling.append {front cs : List Char} (h : Dangling front cs) {before : List Char}
    (hbefore : Even (before.count '"')) : Dangling (before ++ front) (before ++ cs) := by
  obtain ⟨after, rfl, hafter, heven⟩ := h
  refine ⟨after, (List.append_assoc ..).symm, hafter, ?_⟩
  rw [List.count_append]
  exact hbefore.add heven

lemma Dangling.odd_count {front cs : List Char} (h : Dangling front cs) :
    Odd (cs.count '"') := by
  obtain ⟨after, rfl, hafter, heven⟩ := h
  rw [List.count_append, List.count_cons_self, List.count_eq_zero.2 hafter]
  exact heven.add_odd odd_one

/-- There is one last quote. -/
lemma Dangling.unique {front front' cs : List Char} (h : Dangling front cs)
    (h' : Dangling front' cs) : front = front' := by
  obtain ⟨after, rfl, hafter, -⟩ := h
  obtain ⟨after', hcs, hafter', -⟩ := h'
  rcases List.append_eq_append_iff.1 hcs with ⟨more, hfront, hmore⟩ | ⟨more, hfront, hmore⟩
  · cases more with
    | nil => rw [hfront, List.append_nil]
    | cons c more =>
      obtain ⟨-, rfl⟩ := List.cons.inj hmore
      exact absurd (by simp) hafter
  · cases more with
    | nil => rw [hfront, List.append_nil]
    | cons c more =>
      obtain ⟨-, rfl⟩ := List.cons.inj hmore
      exact absurd (by simp) hafter'

namespace Cursor

lemma blanks_of_scan_eq_finished {cs : List Char} {p q : Position}
    (h : (⟨cs, p⟩ : Cursor).scan = .finished q) : Blanks cs := by
  cases front cs with
  | finished hgap => exact hgap
  | terminator hgap rest => simp [scan_blanks_append hgap, scan_terminator] at h
  | unterminated hgap hbody => simp [scan_blanks_append hgap, scan_unterminated hbody] at h
  | string hgap hbody rest => simp [scan_blanks_append hgap, scan_string hbody] at h
  | word hgap hword hrest => simp [scan_blanks_append hgap, scan_word hword hrest] at h

/-- The quote of a string that is not closed is the only quote to come. -/
lemma dangling_of_scan_eq_unterminated {before cs : List Char} {p : Position}
    (h : (⟨cs, .after before⟩ : Cursor).scan = .unterminated p) :
    ∃ gap, Dangling gap cs ∧ p = .after (before ++ gap) := by
  cases front cs with
  | finished hgap => simp [scan_finished hgap] at h
  | terminator hgap rest => simp [scan_blanks_append hgap, scan_terminator] at h
  | @unterminated gap body hgap hbody =>
    rw [scan_blanks_append hgap, scan_unterminated hbody, Position.advanceOver_after] at h
    cases h
    refine ⟨gap, ⟨body, rfl, hbody, ?_⟩, rfl⟩
    rw [hgap.count_quote]
    exact Even.zero
  | string hgap hbody rest => simp [scan_blanks_append hgap, scan_string hbody] at h
  | word hgap hword hrest => simp [scan_blanks_append hgap, scan_word hword hrest] at h

/-- The quotes of what is read are even in number, or the reading fails at the last of them.  Every
token on the way takes up none of them or two. -/
lemma quotes_of_tokenizeAfter (before cs : List Char) (acc : List Token) :
    match (⟨cs, .after before⟩ : Cursor).tokenizeAfter acc with
    | .ok _ => Even (cs.count '"')
    | .error e => ∃ front, Dangling front cs ∧ e = ⟨.after (before ++ front)⟩ := by
  cases hscan : (⟨cs, .after before⟩ : Cursor).scan with
  | finished p =>
    rw [tokenizeAfter_of_finished hscan]
    have hblanks := blanks_of_scan_eq_finished hscan
    simp only [hblanks.count_quote, Even.zero]
  | unterminated p =>
    rw [tokenizeAfter_of_unterminated hscan]
    obtain ⟨gap, hgap, rfl⟩ := dangling_of_scan_eq_unterminated hscan
    exact ⟨gap, hgap, rfl⟩
  | token t next =>
    have hlt := length_rest_lt_of_scan hscan
    rw [tokenizeAfter_of_token hscan]
    obtain ⟨gap, rest, rfl, hgap, hkind, hform, -, -, rfl⟩ := exists_of_scan_eq_token hscan
    have hrest := quotes_of_tokenizeAfter (before ++ gap ++ t.span) rest (t :: acc)
    have hfirst : Even ((gap ++ t.span).count '"') := by
      rw [List.count_append, hgap.count_quote, Nat.zero_add]
      exact hform.even_count_quote hkind
    rw [← List.append_assoc]
    split at hrest
    · rw [List.count_append]
      exact hfirst.add hrest
    · obtain ⟨front, hdangling, rfl⟩ := hrest
      exact ⟨gap ++ t.span ++ front, hdangling.append hfirst, by simp only [List.append_assoc]⟩
termination_by cs.length

end Cursor

lemma tokenize_quotes (text : String) :
    match tokenize text with
    | .ok _ => Even (text.toList.count '"')
    | .error e => ∃ front, Dangling front text.toList ∧ e = ⟨.after front⟩ :=
  Cursor.quotes_of_tokenizeAfter [] text.toList []

/-- **A text cannot be read** exactly when a quote is left over, and then because of it. -/
theorem tokenize_eq_error_iff {text : String} {e : LexError} :
    tokenize text = .error e ↔ ∃ front, Dangling front text.toList ∧ e = ⟨.after front⟩ := by
  have hquotes := tokenize_quotes text
  cases hread : tokenize text with
  | ok l =>
    rw [hread] at hquotes
    simp only [reduceCtorEq, false_iff]
    rintro ⟨front, hdangling, -⟩
    exact Nat.not_even_iff_odd.2 hdangling.odd_count hquotes
  | error e' =>
    rw [hread] at hquotes
    obtain ⟨front, hdangling, rfl⟩ := hquotes
    rw [Except.error.injEq]
    constructor
    · rintro rfl
      exact ⟨front, hdangling, rfl⟩
    · rintro ⟨front', hdangling', rfl⟩
      rw [hdangling.unique hdangling']

/-- **Reading fails exactly on an odd number of quotes.**  Then the error stands at the last quote
of the text, whatever is around it, and it is the error of the whole request: over every database,
with a record of its calls, and every sink, no call is made and nothing changes. -/
theorem tokenize_fails_iff_odd_quotes {σ : Type u} {τ : Type v} (db : Database σ) (sink : Sink τ)
    (r : Recorded σ) (t : τ) (text : String) :
    ((∃ e, tokenize text = .error e) ↔ Odd (text.toList.count '"')) ∧
    ∀ e, tokenize text = .error e →
      (∃ before after, text.toList = before ++ '"' :: after ∧ '"' ∉ after ∧
        e.position = .after before) ∧
      parse text = .error (.unterminated e) ∧
      (db.recorded.runRequest sink r t text).state = r := by
  refine ⟨⟨?_, ?_⟩, ?_⟩
  · rintro ⟨e, he⟩
    obtain ⟨front, hdangling, -⟩ := tokenize_eq_error_iff.1 he
    exact hdangling.odd_count
  · intro hodd
    have hquotes := tokenize_quotes text
    cases hread : tokenize text with
    | ok l =>
      rw [hread] at hquotes
      exact absurd hquotes (Nat.not_even_iff_odd.2 hodd)
    | error e => exact ⟨e, rfl⟩
  · intro e he
    obtain ⟨front, ⟨after, htext, hafter, -⟩, rfl⟩ := tokenize_eq_error_iff.1 he
    have hparse : parse text = .error (.unterminated ⟨.after front⟩) := by
      rw [parse, he]
    refine ⟨⟨front, after, htext, hafter, rfl⟩, hparse, ?_⟩
    rw [Database.runRequest, hparse]
    rfl

/-- Three quotes, the last one within a word of the second line.  The semicolon in front and the
keyword behind are no statements either. -/
theorem tokenize_fails_at_third_quote :
    let text := "; \"x\ny\"é\"k; SET"
    let e : LexError := ⟨⟨9, 2, 4⟩⟩
    tokenize text = .error e ∧ Odd (text.toList.count '"') ∧
      parse text = .error (.unterminated e) ∧
      ((Plain.database true).recorded.runRequest Sink.perfect ⟨[], []⟩ () text).state =
        ⟨[], []⟩ := by
  intro text e
  have he : tokenize text = .error e := by decide +kernel
  obtain ⟨hiff, herror⟩ := tokenize_fails_iff_odd_quotes (Plain.database true) Sink.perfect
    ⟨[], []⟩ () text
  exact ⟨he, hiff.1 ⟨e, he⟩, (herror e he).2⟩

end ExpiringStore
