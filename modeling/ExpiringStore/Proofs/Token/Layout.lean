import ExpiringStore.Proofs.Text.Place
import ExpiringStore.Proofs.Text.Utf8
import ExpiringStore.Proofs.Token.Scan

/-!
# Texts laid out as tokens

A token takes up its `span` in a text: its literal, and for a string the two quotes as well.  A text
is laid out as tokens (`Layout`) when it is their spans in turn with nothing but blanks in front of
each and at the end, every token stands at its own position, and no word could be carried on.

`tokenize` finds such a layout exactly when there is one (`tokenize_map_toList_eq_ok_iff`).  One
direction reads the layout off the scans; the other follows the layout, which leaves each scan no
choice.
-/

namespace ExpiringStore

/-! ## Words and their kinds -/

lemma Keyword.ofWord?_eq_some_iff {word : String} {k : Keyword} :
    Keyword.ofWord? word = some k ↔ word = k.word := by
  constructor
  · intro h
    have := List.find?_some h
    exact (by simpa using this : k.word = word).symm
  · rintro rfl
    cases k <;> rfl

namespace Token

/-- The characters that a token takes up in its text. -/
def span (t : Token) : List Char :=
  if t.kind = .string then '"' :: t.literal.toList ++ ['"'] else t.literal.toList

/-- Whether a token is a word: a keyword, a number or an identifier. -/
def IsWord (t : Token) : Prop :=
  t.kind ≠ .string ∧ t.kind ≠ .terminator ∧ t.kind ≠ .endOfInput

/-- What the kind of a token says about its literal, and the literal of a word about its kind. -/
structure WellFormed (t : Token) : Prop where
  word : t.IsWord → WordChars t.literal.toList
  keyword : t.IsWord → ∀ k, t.kind = .keyword k ↔ t.literal = k.word
  number : t.IsWord → (t.kind = .number ↔ ∀ b ∈ Utf8.encode t.literal, 0x30 ≤ b ∧ b ≤ 0x39)
  string : t.kind = .string → '"' ∉ t.literal.toList
  terminator : t.kind = .terminator → t.literal = ";"

lemma kind_ofWord_eq_keyword_iff {word : String} {k : Keyword} :
    Kind.ofWord word = .keyword k ↔ word = k.word := by
  rw [← Keyword.ofWord?_eq_some_iff]
  unfold Kind.ofWord
  cases Keyword.ofWord? word with
  | none => by_cases h : word.toList.all Char.isDigit = true <;> simp [h]
  | some j => simp

/-- No keyword consists of digits, so the two tests for a word cannot both hold. -/
lemma kind_ofWord_eq_number_iff {word : String} :
    Kind.ofWord word = .number ↔ ∀ c ∈ word.toList, c.isDigit = true := by
  unfold Kind.ofWord
  cases hk : Keyword.ofWord? word with
  | none => simp
  | some k =>
    obtain rfl := Keyword.ofWord?_eq_some_iff.1 hk
    cases k <;> simp [Keyword.word]

lemma isWord_ofWord (word : String) (p : Position) :
    (⟨.ofWord word, word, p⟩ : Token).IsWord := by
  unfold IsWord Kind.ofWord
  cases Keyword.ofWord? word with
  | none => by_cases h : word.toList.all Char.isDigit = true <;> simp [h]
  | some k => simp

lemma wellFormed_ofWord {word : String} (hword : WordChars word.toList) (p : Position) :
    (⟨.ofWord word, word, p⟩ : Token).WellFormed where
  word _ := hword
  keyword _ _ := kind_ofWord_eq_keyword_iff
  number _ := by rw [kind_ofWord_eq_number_iff, Utf8.forall_mem_encode_digit_iff]
  string h := absurd h (isWord_ofWord word p).1
  terminator h := absurd h (isWord_ofWord word p).2.1

/-- The kind of a word is the one that its literal has. -/
lemma WellFormed.kind_eq {t : Token} (h : t.WellFormed) (hword : t.IsWord) :
    t.kind = .ofWord t.literal := by
  have hnumber := h.number hword
  rw [Utf8.forall_mem_encode_digit_iff, ← kind_ofWord_eq_number_iff] at hnumber
  have hkeyword (k : Keyword) := (h.keyword hword k).trans kind_ofWord_eq_keyword_iff.symm
  obtain ⟨hstring, hterminator, hend⟩ := hword
  have hofWord := isWord_ofWord t.literal t.position
  cases hk : t.kind with
  | keyword k => exact ((hkeyword k).1 hk).symm
  | number => exact (hnumber.1 hk).symm
  | string => exact absurd hk hstring
  | terminator => exact absurd hk hterminator
  | endOfInput => exact absurd hk hend
  | identifier =>
    rw [hk] at hnumber hkeyword
    cases hlit : Kind.ofWord t.literal with
    | identifier => rfl
    | keyword k => exact absurd ((hkeyword k).2 hlit) (by simp)
    | number => exact absurd (hnumber.2 hlit) (by simp)
    | string => exact absurd hlit hofWord.1
    | terminator => exact absurd hlit hofWord.2.1
    | endOfInput => exact absurd hlit hofWord.2.2

lemma span_of_isWord {t : Token} (h : t.IsWord) : t.span = t.literal.toList := by
  simp [span, h.1]

end Token

/-! ## Scans and layouts -/

open Token

/-- `Layout before rest ts`: after the characters `before`, the characters `rest` are laid out as
the tokens `ts`. -/
inductive Layout : List Char → List Char → List Token → Prop
  | stop {before gap} (hgap : Blanks gap) : Layout before gap [.endAt (.after (before ++ gap))]
  | token {before gap t rest ts} (hgap : Blanks gap) (hkind : t.kind ≠ .endOfInput)
      (hform : t.WellFormed) (hplace : t.position = .after (before ++ gap))
      (hend : t.IsWord → EndsWord rest) (hrest : Layout (before ++ gap ++ t.span) rest ts) :
      Layout before (gap ++ (t.span ++ rest)) (t :: ts)

namespace Cursor

/-- A token that is scanned stands behind blanks, in its form and at its place. -/
lemma exists_of_scan_eq_token {before cs : List Char} {t : Token} {next : Cursor}
    (h : (⟨cs, .after before⟩ : Cursor).scan = .token t next) :
    ∃ gap rest, cs = gap ++ (t.span ++ rest) ∧ Blanks gap ∧ t.kind ≠ .endOfInput ∧
      t.WellFormed ∧ t.position = .after (before ++ gap) ∧ (t.IsWord → EndsWord rest) ∧
      next = ⟨rest, .after (before ++ gap ++ t.span)⟩ := by
  cases front cs with
  | finished hgap => simp [scan_finished hgap] at h
  | terminator hgap rest =>
    rw [scan_blanks_append hgap, scan_terminator, Position.advanceOver_after] at h
    cases h
    refine ⟨_, rest, by simp [span], hgap, by simp, ?_, rfl, ?_, ?_⟩
    · exact ⟨fun h => absurd rfl h.2.1, fun h => absurd rfl h.2.1, fun h => absurd rfl h.2.1,
        by simp, fun _ => rfl⟩
    · exact fun h => absurd rfl h.2.1
    · rw [Position.advanceOver_after]
      simp [span]
  | unterminated hgap hbody =>
    rw [scan_blanks_append hgap, scan_unterminated hbody] at h
    cases h
  | string hgap hbody rest =>
    rw [scan_blanks_append hgap, scan_string hbody, Position.advanceOver_after] at h
    cases h
    refine ⟨_, rest, by simp [span], hgap, by simp, ?_, rfl, ?_, ?_⟩
    · exact ⟨fun h => absurd rfl h.1, fun h => absurd rfl h.1, fun h => absurd rfl h.1,
        fun _ => by simpa using hbody, by simp⟩
    · exact fun h => absurd rfl h.1
    · rw [Position.advanceOver_after]
      simp [span]
  | @word gap word rest hgap hword hrest =>
    rw [scan_blanks_append hgap, scan_word hword hrest, Position.advanceOver_after] at h
    cases h
    have hisWord := isWord_ofWord (String.ofList word) (.after (before ++ gap))
    have hspan := span_of_isWord hisWord
    rw [String.toList_ofList] at hspan
    refine ⟨_, rest, by rw [hspan], hgap, hisWord.2.2, ?_, rfl, fun _ => hrest, ?_⟩
    · exact wellFormed_ofWord (by rwa [String.toList_ofList]) _
    · rw [Position.advanceOver_after, hspan]

/-- A token in its form is scanned where it stands. -/
lemma scan_span_append {t : Token} {rest : List Char} (hkind : t.kind ≠ .endOfInput)
    (hform : t.WellFormed) (hend : t.IsWord → EndsWord rest) :
    (⟨t.span ++ rest, t.position⟩ : Cursor).scan =
      .token t ⟨rest, t.position.advanceOver t.span⟩ := by
  by_cases hword : t.IsWord
  · have hscan := scan_word (hform.word hword) (hend hword) t.position
    rw [String.ofList_toList, ← hform.kind_eq hword] at hscan
    rw [span_of_isWord hword]
    exact hscan
  · obtain ⟨kind, literal, position⟩ := t
    have : kind = .string ∨ kind = .terminator := by
      simp only [IsWord] at hword
      tauto
    rcases this with rfl | rfl
    · have := scan_string (hform.string rfl) rest position
      simpa [span] using this
    · obtain rfl : literal = ";" := hform.terminator rfl
      have := scan_terminator rest position
      simpa [span] using this

/-! ## Tokenizing -/

lemma tokenizeAfter_of_token {c next : Cursor} {t : Token} (h : c.scan = .token t next)
    (acc : List Token) : c.tokenizeAfter acc = next.tokenizeAfter (t :: acc) := by
  rw [tokenizeAfter]
  split <;> simp_all

lemma tokenizeAfter_of_finished {c : Cursor} {p : Position} (h : c.scan = .finished p)
    (acc : List Token) : c.tokenizeAfter acc = .ok ⟨acc.reverse, p⟩ := by
  rw [tokenizeAfter]
  split <;> simp_all

lemma tokenizeAfter_of_unterminated {c : Cursor} {p : Position} (h : c.scan = .unterminated p)
    (acc : List Token) : c.tokenizeAfter acc = .error ⟨p⟩ := by
  rw [tokenizeAfter]
  split <;> simp_all

lemma exists_layout_of_tokenizeAfter {before cs : List Char} {acc : List Token} {l : Lexed}
    (h : (⟨cs, .after before⟩ : Cursor).tokenizeAfter acc = .ok l) :
    ∃ ts, Layout before cs ts ∧ l.toList = acc.reverse ++ ts := by
  cases hscan : (⟨cs, .after before⟩ : Cursor).scan with
  | finished p =>
    rw [tokenizeAfter_of_finished hscan] at h
    cases h
    cases front cs with
    | finished hgap =>
      rw [scan_finished hgap, Position.advanceOver_after] at hscan
      cases hscan
      exact ⟨_, .stop hgap, rfl⟩
    | terminator hgap rest => simp [scan_blanks_append hgap, scan_terminator] at hscan
    | unterminated hgap hbody =>
      simp [scan_blanks_append hgap, scan_unterminated hbody] at hscan
    | string hgap hbody rest => simp [scan_blanks_append hgap, scan_string hbody] at hscan
    | word hgap hword hrest =>
      simp [scan_blanks_append hgap, scan_word hword hrest] at hscan
  | unterminated p =>
    rw [tokenizeAfter_of_unterminated hscan] at h
    cases h
  | token t next =>
    have hlt := length_rest_lt_of_scan hscan
    rw [tokenizeAfter_of_token hscan] at h
    obtain ⟨gap, rest, rfl, hgap, hkind, hform, hplace, hend, rfl⟩ :=
      exists_of_scan_eq_token hscan
    obtain ⟨ts, hts, hl⟩ := exists_layout_of_tokenizeAfter h
    exact ⟨t :: ts, .token hgap hkind hform hplace hend hts, by simpa using hl⟩
termination_by cs.length

lemma tokenizeAfter_of_layout {before cs : List Char} {ts : List Token}
    (h : Layout before cs ts) (acc : List Token) :
    ∃ l, (⟨cs, .after before⟩ : Cursor).tokenizeAfter acc = .ok l ∧
      l.toList = acc.reverse ++ ts := by
  induction h generalizing acc with
  | stop hgap =>
    refine ⟨_, tokenizeAfter_of_finished (scan_finished hgap _) acc, ?_⟩
    rw [Position.advanceOver_after]
    rfl
  | @token before gap t rest ts hgap hkind hform hplace hend hrest ih =>
    have hscan : (⟨gap ++ (t.span ++ rest), .after before⟩ : Cursor).scan =
        .token t ⟨rest, .after (before ++ gap ++ t.span)⟩ := by
      rw [scan_blanks_append hgap, Position.advanceOver_after, ← hplace,
        scan_span_append hkind hform hend, hplace, Position.advanceOver_after]
    obtain ⟨l, hl, hlist⟩ := ih (t :: acc)
    refine ⟨l, ?_, by simpa using hlist⟩
    rw [tokenizeAfter_of_token hscan, hl]

end Cursor

/-- Reading a text finds the tokens that it is laid out as, when it is laid out as tokens. -/
lemma tokenize_map_toList_eq_ok_iff {text : String} {ts : List Token} :
    (tokenize text).map Lexed.toList = .ok ts ↔ Layout [] text.toList ts := by
  unfold tokenize Cursor.ofText
  rw [← Position.after_nil]
  constructor
  · intro h
    cases hl : (⟨text.toList, .after []⟩ : Cursor).tokenizeAfter [] with
    | error e => simp [hl, Except.map] at h
    | ok l =>
      obtain ⟨us, hus, hlist⟩ := Cursor.exists_layout_of_tokenizeAfter hl
      obtain rfl : us = ts := by simpa [hl, Except.map, hlist] using h
      exact hus
  · intro h
    obtain ⟨l, hl, hlist⟩ := Cursor.tokenizeAfter_of_layout h []
    simp [hl, Except.map, hlist]

lemma layout_of_tokenize {text : String} {l : Lexed} (h : tokenize text = .ok l) :
    Layout [] text.toList l.toList := by
  rw [← tokenize_map_toList_eq_ok_iff, h]
  rfl

end ExpiringStore
