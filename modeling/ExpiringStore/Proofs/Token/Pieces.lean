import ExpiringStore.Proofs.Token.Reading

/-!
# Texts written in pieces

Whoever writes a request does not think of places or of kinds of words.  A request is written in
pieces: bare words, texts in quotes, and semicolons.  Blanks may stand in front of every piece and
at the end, and nowhere do they have to, except between two words, which would be one word without
them.  `Spaced pieces text` says that a text is written so.

`exists_tokenize_iff_spaced` is the main result: a text has tokens that are these pieces exactly
when each piece can be written at all and the text is the pieces, spaced.  Every token is a piece at
a place (`Token.piece`, `Piece.token`), so a `Layout` and a spacing come down to each other.
-/

namespace ExpiringStore

/-- What a request is written in. -/
inductive Piece where
  | word (w : String)
  | quoted (body : String)
  | semicolon
deriving DecidableEq

namespace Piece

/-- How a piece is written. -/
def text : Piece → List Char
  | word w => w.toList
  | quoted body => '"' :: body.toList ++ ['"']
  | semicolon => [';']

def IsWord : Piece → Prop
  | word _ => True
  | quoted _ => False
  | semicolon => False

/-- What can be written as a piece: a word without blanks, quotes and semicolons, a text in quotes
without quotes. -/
def WellFormed : Piece → Prop
  | word w => WordChars w.toList
  | quoted body => '"' ∉ body.toList
  | semicolon => True

/-- The token that a piece is at a place. -/
def token (p : Position) : Piece → Token
  | word w => ⟨.ofWord w, w, p⟩
  | quoted body => ⟨.string, body, p⟩
  | semicolon => ⟨.terminator, ";", p⟩

end Piece

/-- What a token is written as. -/
def Token.piece (t : Token) : Piece :=
  match t.kind with
  | .string => .quoted t.literal
  | .terminator => .semicolon
  | _ => .word t.literal

/-- A text is pieces in turn, with blanks in front of each and at the end. -/
inductive Spaced : List Piece → List Char → Prop
  | nil {gap} (hgap : Blanks gap) : Spaced [] gap
  | cons {gap piece pieces rest} (hgap : Blanks gap)
      (hapart : piece.IsWord → ∀ next ∈ pieces.head?, next.IsWord →
        ∃ c ∈ rest.head?, isBlank c = true)
      (hrest : Spaced pieces rest) : Spaced (piece :: pieces) (gap ++ (piece.text ++ rest))

/-! ## Tokens and pieces -/

/-- A token of a text that is not its end. -/
structure Token.Proper (t : Token) : Prop where
  wellFormed : t.WellFormed
  kind_ne : t.kind ≠ .endOfInput

lemma Token.piece_of_isWord {t : Token} (h : t.IsWord) : t.piece = .word t.literal := by
  obtain ⟨hstring, hterminator, -⟩ := h
  unfold piece
  split <;> simp_all

lemma Token.Proper.isWord {t : Token} (h : t.Proper) (hpiece : t.piece.IsWord) : t.IsWord := by
  refine ⟨fun hstring => ?_, fun hterminator => ?_, h.kind_ne⟩
  · simp only [piece, hstring] at hpiece
    exact hpiece
  · simp only [piece, hterminator] at hpiece
    exact hpiece

lemma Token.text_piece {t : Token} (h : t.WellFormed) : t.piece.text = t.span := by
  unfold piece span
  split
  · rename_i hstring
    rw [if_pos hstring]
    rfl
  · rename_i hterminator
    rw [if_neg (by simp [hterminator]), h.terminator hterminator]
    rfl
  · rename_i hstring hterminator
    rw [if_neg hstring]
    rfl

lemma Token.Proper.wellFormed_piece {t : Token} (h : t.Proper) : t.piece.WellFormed := by
  unfold piece
  split
  · rename_i hstring
    exact h.wellFormed.string hstring
  · trivial
  · rename_i hstring hterminator
    exact h.wellFormed.word ⟨hstring, hterminator, h.kind_ne⟩

namespace Piece

@[simp] lemma piece_token (p : Position) (piece : Piece) : (piece.token p).piece = piece := by
  cases piece with
  | word w => exact Token.piece_of_isWord (Token.isWord_ofWord w p)
  | quoted body => rfl
  | semicolon => rfl

lemma proper_token {piece : Piece} (h : piece.WellFormed) (p : Position) :
    (piece.token p).Proper := by
  cases piece with
  | word w => exact ⟨Token.wellFormed_ofWord h p, (Token.isWord_ofWord w p).2.2⟩
  | quoted body =>
    exact ⟨⟨fun hword => absurd rfl hword.1, fun hword => absurd rfl hword.1,
      fun hword => absurd rfl hword.1, fun _ => h, nofun⟩, nofun⟩
  | semicolon =>
    exact ⟨⟨fun hword => absurd rfl hword.2.1, fun hword => absurd rfl hword.2.1,
      fun hword => absurd rfl hword.2.1, nofun, fun _ => rfl⟩, nofun⟩

end Piece

/-! ## Layouts are spaced pieces -/

lemma isWordChar_of_isBlank {c : Char} (h : isBlank c = true) : isWordChar c = false := by
  simp [isWordChar, h]

/-- Between two words there is a blank. -/
lemma exists_blank_of_endsWord {gap word rest : List Char} (hgap : Blanks gap)
    (hword : WordChars word) (hend : EndsWord (gap ++ (word ++ rest))) :
    ∃ c ∈ (gap ++ (word ++ rest)).head?, isBlank c = true := by
  cases gap with
  | nil =>
    obtain ⟨c, word, rfl⟩ := List.exists_cons_of_ne_nil hword.1
    have hno : isWordChar c = false := hend c rfl
    rw [hword.2 c List.mem_cons_self] at hno
    cases hno
  | cons c gap => exact ⟨c, rfl, hgap c List.mem_cons_self⟩

lemma Layout.spaced {before rest : List Char} {ts : List Token} (h : Layout before rest ts) :
    ∃ tokens stop, ts = tokens ++ [stop] ∧ (∀ t ∈ tokens, t.Proper) ∧
      Spaced (tokens.map Token.piece) rest := by
  induction h with
  | stop hgap => exact ⟨[], _, rfl, nofun, .nil hgap⟩
  | @token before gap t rest ts hgap hkind hform hplace hend hrest ih =>
    obtain ⟨tokens, stop, rfl, hproper, hspaced⟩ := ih
    have ht : t.Proper := ⟨hform, hkind⟩
    refine ⟨t :: tokens, stop, rfl, List.forall_mem_cons.2 ⟨ht, hproper⟩, ?_⟩
    rw [← Token.text_piece hform]
    refine .cons hgap (fun hword next hnext hnextWord => ?_) hspaced
    cases tokens with
    | nil => cases hnext
    | cons u tokens =>
      obtain rfl : u.piece = next := Option.some_inj.1 hnext
      have hu := hproper u List.mem_cons_self
      have huWord := hu.isWord hnextWord
      have hends := hend (ht.isWord hword)
      rw [List.cons_append] at hrest
      generalize tokens ++ [stop] = more at hrest
      cases hrest with
      | stop => exact absurd rfl hu.kind_ne
      | token hgap' _ _ _ _ _ =>
        rw [Token.span_of_isWord huWord] at hends ⊢
        exact exists_blank_of_endsWord hgap' (hu.wellFormed.word huWord) hends

/-! ## Spaced pieces are layouts -/

/-- A word can end in front of pieces, if they begin with no word or after a blank. -/
lemma Spaced.endsWord {pieces : List Piece} {rest : List Char} (h : Spaced pieces rest)
    (hapart : ∀ next ∈ pieces.head?, next.IsWord → ∃ c ∈ rest.head?, isBlank c = true) :
    EndsWord rest := by
  intro c hc
  cases h with
  | nil hgap => exact isWordChar_of_isBlank (hgap c (List.mem_of_mem_head? hc))
  | @cons gap piece pieces rest hgap _ _ =>
    cases gap with
    | cons b gap =>
      obtain rfl : b = c := Option.some_inj.1 hc
      exact isWordChar_of_isBlank (hgap b List.mem_cons_self)
    | nil =>
      cases piece with
      | word w =>
        obtain ⟨b, hb, hblank⟩ := hapart _ rfl trivial
        obtain rfl : b = c := Option.some_inj.1 (hb.symm.trans hc)
        exact isWordChar_of_isBlank hblank
      | quoted body =>
        obtain rfl : '"' = c := Option.some_inj.1 hc
        decide
      | semicolon =>
        obtain rfl : ';' = c := Option.some_inj.1 hc
        decide

lemma Spaced.layout {pieces : List Piece} {rest : List Char} (h : Spaced pieces rest)
    (hforms : ∀ p ∈ pieces, p.WellFormed) (before : List Char) :
    ∃ tokens stop, Layout before rest (tokens ++ [stop]) ∧ tokens.map Token.piece = pieces := by
  induction h generalizing before with
  | nil hgap => exact ⟨[], _, .stop hgap, rfl⟩
  | @cons gap piece pieces rest hgap hapart hrest ih =>
    obtain ⟨hform, hforms⟩ := List.forall_mem_cons.1 hforms
    obtain ⟨tokens, stop, hlayout, hpieces⟩ := ih hforms (before ++ gap ++ piece.text)
    let t := piece.token (.after (before ++ gap))
    obtain ⟨ht, hkind⟩ : t.Proper := Piece.proper_token hform _
    have hpiece : t.piece = piece := Piece.piece_token _ piece
    have hspan : piece.text = t.span := by rw [← Token.text_piece ht, hpiece]
    have hplace : t.position = .after (before ++ gap) := by cases piece <;> rfl
    have hend : t.IsWord → EndsWord rest := by
      intro hword
      refine hrest.endsWord fun next hnext hnextWord => hapart ?_ next hnext hnextWord
      rw [← hpiece, Token.piece_of_isWord hword]
      trivial
    rw [hspan] at hlayout ⊢
    refine ⟨t :: tokens, stop, .token hgap hkind ht hplace hend hlayout, ?_⟩
    rw [List.map_cons, hpiece, hpieces]

/-! ## The main result -/

lemma proper_of_tokenize {text : String} {l : Lexed} (h : tokenize text = .ok l) :
    (∀ t ∈ l.tokens, t.Proper) ∧ Spaced (l.tokens.map Token.piece) text.toList := by
  obtain ⟨tokens, stop, htokens, hproper, hspaced⟩ := (layout_of_tokenize h).spaced
  obtain ⟨rfl, -⟩ := List.append_inj' htokens rfl
  exact ⟨hproper, hspaced⟩

/-- **A text has tokens that are these pieces** exactly when each of them can be written and the
text is the pieces, spaced. -/
theorem exists_tokenize_iff_spaced (text : String) (pieces : List Piece) :
    (∃ l, tokenize text = .ok l ∧ l.tokens.map Token.piece = pieces) ↔
      (∀ p ∈ pieces, p.WellFormed) ∧ Spaced pieces text.toList := by
  constructor
  · rintro ⟨l, hl, rfl⟩
    obtain ⟨hproper, hspaced⟩ := proper_of_tokenize hl
    refine ⟨fun p hp => ?_, hspaced⟩
    obtain ⟨t, ht, rfl⟩ := List.mem_map.1 hp
    exact (hproper t ht).wellFormed_piece
  · rintro ⟨hforms, hspaced⟩
    obtain ⟨tokens, stop, hlayout, rfl⟩ := hspaced.layout hforms []
    rw [← tokenize_map_toList_eq_ok_iff] at hlayout
    cases hl : tokenize text with
    | error e =>
      rw [hl] at hlayout
      cases hlayout
    | ok l =>
      rw [hl] at hlayout
      have htokens : l.tokens ++ [l.last] = tokens ++ [stop] := Except.ok.inj hlayout
      obtain ⟨rfl, -⟩ := List.append_inj' htokens rfl
      exact ⟨l, rfl, rfl⟩

end ExpiringStore
