import ExpiringStore.Proofs.Token.Joined
import ExpiringStore.Proofs.Token.Quotes
import ExpiringStore.Proofs.Token.Reading
import Mathlib.Data.String.Basic

/-!
# Tokens handed out one at a time

A lexer that is asked again and again gives a list of items and then nothing, for ever
(`Lexer.HandsOut`).  On a text that can be read the items are its tokens.  On any other text they
are the tokens in front of the quote that is left over, and then the error.  Both follow the layout
of what stands in front of the last item, which is the whole text or all that precedes the quote
(`Layout.handsOut`).

A lexer stands between two characters of its text, with the characters before it counted and those
behind it to come (`Lexer.PlacedIn`).  No call changes that, and a token takes the lexer over at
least one character.  So every part of the text that a scan cuts out lies within the text and
between two characters (`Sliced`).
-/

namespace ExpiringStore

open Token

/-! ## Parts of a text -/

/-- The bytes from `a` to `b` can be cut out of `text`, being in order, within the text and at
borders of characters, and they are the text `part`. -/
structure Sliced (text : String) (a b : Nat) (part : String) : Prop where
  ordered : a ≤ b
  within : b ≤ text.utf8ByteSize
  fst_border : (⟨a⟩ : String.Pos.Raw).IsValid text
  snd_border : (⟨b⟩ : String.Pos.Raw).IsValid text
  extract : String.Pos.Raw.extract text ⟨a⟩ ⟨b⟩ = part

lemma byteCount_eq_utf8Len (cs : List Char) : byteCount cs = String.utf8Len cs := by
  induction cs with
  | nil => rfl
  | cons c cs ih => rw [byteCount_cons, String.utf8Len_cons, ih, Nat.add_comm]

/-- A place that is counted from the characters before it is a border. -/
lemma isValid_byteCount {text : String} {before rest : List Char}
    (h : text.toList = before ++ rest) : (⟨byteCount before⟩ : String.Pos.Raw).IsValid text := by
  refine String.Pos.Raw.isValid_iff_exists_append.2
    ⟨.ofList before, .ofList rest, String.toList_injective (by simp [h]), ?_⟩
  rw [String.rawEndPos_ofList, byteCount_eq_utf8Len]

lemma sliced_of_toList_eq {text : String} {before cs rest : List Char}
    (h : text.toList = before ++ cs ++ rest) :
    Sliced text (byteCount before) (byteCount (before ++ cs)) (.ofList cs) where
  ordered := by rw [byteCount_append]; omega
  within := by
    rw [← byteCount_toList, h, byteCount_append _ rest]
    omega
  fst_border := isValid_byteCount (by rw [h, List.append_assoc])
  snd_border := isValid_byteCount h
  extract := by
    rw [← String.ofList_toList (s := text), h, byteCount_append, byteCount_eq_utf8Len,
      byteCount_eq_utf8Len]
    exact String.extract_of_valid before cs rest

/-! ## The items of a lexer -/

namespace Lexer

/-- The lexer after `n` calls of `next?`. -/
def after (l : Lexer) : Nat → Lexer
  | 0 => l
  | n + 1 => l.next?.2.after n

lemma after_succ (l : Lexer) (n : Nat) : l.after (n + 1) = (l.after n).next?.2 := by
  induction n generalizing l with
  | zero => rfl
  | succ n ih => exact ih l.next?.2

/-- The calls of `next?` give `items` in turn, and from then on nothing. -/
def HandsOut (l : Lexer) (items : List (Except LexError Token)) : Prop :=
  ∀ n, l.take n = (items.map some).take n ++ List.replicate (n - items.length) none

lemma next?_of_done {l : Lexer} (h : l.done = true) : l.next? = (none, l) := by
  simp [next?, h]

lemma handsOut_nil {l : Lexer} (h : l.done = true) : l.HandsOut [] := by
  intro n
  induction n with
  | zero => rfl
  | succ n ih =>
    rw [take, next?_of_done h, ih]
    simp [List.replicate_succ]

lemma HandsOut.cons {l : Lexer} {item : Except LexError Token}
    {items : List (Except LexError Token)} (hitem : l.next?.1 = some item)
    (hitems : l.next?.2.HandsOut items) : l.HandsOut (item :: items) := by
  intro n
  cases n with
  | zero => simp [take]
  | succ n =>
    rw [take, hitem, hitems n]
    simp

/-! ### One call -/

variable {c next : Cursor} {t : Token} {p : Position}

lemma next?_of_token (h : c.scan = .token t next) :
    (⟨c, false⟩ : Lexer).next? = (some (.ok t), ⟨next, false⟩) := by
  simp [next?, h]

lemma next?_of_finished (h : c.scan = .finished p) :
    (⟨c, false⟩ : Lexer).next? = (some (.ok (.endAt p)), ⟨⟨[], p⟩, true⟩) := by
  simp [next?, h]

lemma next?_of_unterminated (h : c.scan = .unterminated p) :
    (⟨c, false⟩ : Lexer).next? = (some (.error ⟨p⟩), ⟨c, true⟩) := by
  simp [next?, h]

/-- At the end of the text the last token is handed out. -/
lemma handsOut_finished (h : c.scan = .finished p) :
    (⟨c, false⟩ : Lexer).HandsOut [.ok (.endAt p)] := by
  refine .cons (by rw [next?_of_finished h]) (handsOut_nil ?_)
  rw [next?_of_finished h]

/-- At a quote that is left over the error is handed out. -/
lemma handsOut_unterminated (h : c.scan = .unterminated p) :
    (⟨c, false⟩ : Lexer).HandsOut [.error ⟨p⟩] := by
  refine .cons (by rw [next?_of_unterminated h]) (handsOut_nil ?_)
  rw [next?_of_unterminated h]

end Lexer

/-- Tokens are handed out in turn, and then whatever comes behind the text that is laid out as
them: `last` is what the lexer gives where it finds no more tokens. -/
lemma Layout.handsOut {before front : List Char} {ts : List Token} (h : Layout before front ts)
    {tokens : List Token} {stop : Token} (hts : ts = tokens ++ [stop]) {rest : List Char}
    (hrest : EndsWord rest) (last : Position → Except LexError Token)
    (hlast : ∀ before gap, Blanks gap →
      (⟨⟨gap ++ rest, .after before⟩, false⟩ : Lexer).HandsOut [last (.after (before ++ gap))]) :
    (⟨⟨front ++ rest, .after before⟩, false⟩ : Lexer).HandsOut
      (tokens.map .ok ++ [last stop.position]) := by
  induction h generalizing tokens with
  | @stop before gap hgap =>
    cases tokens with
    | nil =>
      obtain ⟨rfl, -⟩ := List.cons.inj hts
      exact hlast before gap hgap
    | cons u tokens => simp at hts
  | @token before gap t more ts hgap hkind hform hplace hend hmore ih =>
    cases tokens with
    | nil =>
      obtain ⟨-, rfl⟩ := List.cons.inj hts
      cases hmore
    | cons u tokens =>
      obtain ⟨rfl, rfl⟩ := List.cons.inj hts
      have hscan : (⟨gap ++ (t.span ++ more) ++ rest, .after before⟩ : Cursor).scan =
          .token t ⟨more ++ rest, .after (before ++ gap ++ t.span)⟩ := by
        rw [List.append_assoc, List.append_assoc, Cursor.scan_blanks_append hgap,
          Position.advanceOver_after, ← hplace,
          Cursor.scan_span_append hkind hform fun hword => (hend hword).append fun _ => hrest,
          hplace, Position.advanceOver_after]
      refine .cons (by rw [Lexer.next?_of_token hscan]) ?_
      rw [Lexer.next?_of_token hscan]
      exact ih rfl

lemma Layout.eq_endAt {before rest : List Char} {ts : List Token} (h : Layout before rest ts)
    {tokens : List Token} {stop : Token} (hts : ts = tokens ++ [stop]) :
    stop = .endAt (.after (before ++ rest)) := by
  induction h generalizing tokens with
  | stop hgap =>
    cases tokens with
    | nil => exact (List.cons.inj hts).1.symm
    | cons u tokens => simp at hts
  | token hgap hkind hform hplace hend hrest ih =>
    cases tokens with
    | nil =>
      obtain ⟨-, rfl⟩ := List.cons.inj hts
      cases hrest
    | cons u tokens =>
      obtain ⟨-, rfl⟩ := List.cons.inj hts
      rw [ih rfl, List.append_assoc, List.append_assoc]

/-- A layout has no more tokens than characters, apart from the last one. -/
lemma Layout.length_le {before rest : List Char} {ts : List Token} (h : Layout before rest ts) :
    ts.length ≤ rest.length + 1 := by
  induction h with
  | stop hgap => simp
  | token hgap hkind hform hplace hend hrest ih =>
    have hspan := List.length_pos_iff.2 (hform.span_ne_nil hkind)
    simp only [List.length_cons, List.length_append] at ih ⊢
    omega

/-! ## The place of a lexer -/

namespace Lexer

/-- A lexer that stands between two characters of `text`. -/
def PlacedIn (l : Lexer) (text : String) : Prop :=
  ∃ before, text.toList = before ++ l.cursor.rest ∧ l.cursor.position = .after before

lemma placedIn_ofText (text : String) : (ofText text).PlacedIn text :=
  ⟨[], rfl, Position.after_nil.symm⟩

/-- What one call does to the place of a lexer, and where a token stands that it hands out. -/
lemma PlacedIn.cases_next? {l : Lexer} {text : String} (h : l.PlacedIn text) :
    l.next?.2.PlacedIn text ∧ ∀ t, l.next?.1 = some (.ok t) → t.kind ≠ .endOfInput →
      ∃ before gap rest, text.toList = before ++ gap ++ t.span ++ rest ∧ t.span ≠ [] ∧
        l.cursor.position = .after before ∧ t.position = .after (before ++ gap) ∧
        l.next?.2.cursor.position = .after (before ++ gap ++ t.span) := by
  obtain ⟨⟨cs, p⟩, done⟩ := l
  obtain ⟨before, htext, rfl⟩ := h
  simp only at htext
  cases done with
  | true =>
    rw [next?_of_done rfl]
    exact ⟨⟨before, htext, rfl⟩, by simp⟩
  | false =>
    cases hscan : (⟨cs, .after before⟩ : Cursor).scan with
    | finished p =>
      rw [next?_of_finished hscan]
      have hgap := Cursor.blanks_of_scan_eq_finished hscan
      rw [Cursor.scan_finished hgap, Position.advanceOver_after] at hscan
      cases hscan
      refine ⟨⟨before ++ cs, by simp [htext], rfl⟩, fun t ht hkind => ?_⟩
      cases ht
      exact absurd rfl hkind
    | unterminated p =>
      rw [next?_of_unterminated hscan]
      exact ⟨⟨before, htext, rfl⟩, by simp⟩
    | token t next =>
      rw [next?_of_token hscan]
      obtain ⟨gap, rest, rfl, -, hkind, hform, hplace, -, rfl⟩ :=
        Cursor.exists_of_scan_eq_token hscan
      have hsplit : text.toList = before ++ gap ++ t.span ++ rest := by simp [htext]
      refine ⟨⟨_, hsplit, rfl⟩, fun u hu _ => ?_⟩
      cases hu
      exact ⟨before, gap, rest, hsplit, hform.span_ne_nil hkind, rfl, hplace, rfl⟩

lemma PlacedIn.after {l : Lexer} {text : String} (h : l.PlacedIn text) (n : Nat) :
    (l.after n).PlacedIn text := by
  induction n generalizing l with
  | zero => exact h
  | succ n ih => exact ih h.cases_next?.1

/-- Wherever a lexer stands and however far it looks ahead, what remains can be cut out of its
text. -/
lemma PlacedIn.sliced {l : Lexer} {text : String} (h : l.PlacedIn text) {passed rest : List Char}
    (hrest : l.cursor.rest = passed ++ rest) :
    Sliced text (l.cursor.position.advanceOver passed).offset text.utf8ByteSize
      (.ofList rest) := by
  obtain ⟨before, htext, hplace⟩ := h
  have hsplit : text.toList = (before ++ passed) ++ rest ++ [] := by simp [htext, hrest]
  have hsize : text.utf8ByteSize = byteCount (before ++ passed ++ rest) := by
    rw [← byteCount_toList, hsplit, List.append_nil]
  rw [hplace, Position.advanceOver_after, Position.offset_after, hsize]
  exact sliced_of_toList_eq hsplit

/-- A token moves the lexer on, and it can be cut out of the text. -/
lemma PlacedIn.sliced_token {l : Lexer} {text : String} (h : l.PlacedIn text) {t : Token}
    (ht : l.next?.1 = some (.ok t)) (hkind : t.kind ≠ .endOfInput) :
    l.cursor.position.offset ≤ t.position.offset ∧
      t.position.offset < l.next?.2.cursor.position.offset ∧
      Sliced text t.position.offset l.next?.2.cursor.position.offset (.ofList t.span) := by
  obtain ⟨before, gap, rest, hsplit, hspan, hplace, htoken, hnext⟩ := h.cases_next?.2 t ht hkind
  rw [hplace, htoken, hnext]
  simp only [Position.offset_after]
  refine ⟨by simp, ?_, sliced_of_toList_eq hsplit⟩
  have hpos := byteCount_pos hspan
  rw [byteCount_append _ t.span]
  omega

/-- The body of a string can be cut out of the text, from behind the one quote to before the
other. -/
lemma PlacedIn.sliced_body {l : Lexer} {text : String} (h : l.PlacedIn text) {t : Token}
    (ht : l.next?.1 = some (.ok t)) (hkind : t.kind = .string) :
    Sliced text (t.position.offset + 1) (l.next?.2.cursor.position.offset - 1) t.literal := by
  have hne : t.kind ≠ .endOfInput := by simp [hkind]
  obtain ⟨before, gap, rest, hsplit, -, -, htoken, hnext⟩ := h.cases_next?.2 t ht hne
  rw [span, if_pos hkind] at hsplit hnext
  have hbody : text.toList = (before ++ gap ++ ['"']) ++ t.literal.toList ++ ('"' :: rest) := by
    simp [hsplit]
  have hsliced := sliced_of_toList_eq hbody
  have hfst : (t.position.offset + 1) = byteCount (before ++ gap ++ ['"']) := by
    rw [htoken, Position.offset_after, byteCount_append _ ['"']]
    rfl
  have hsnd : l.next?.2.cursor.position.offset - 1 =
      byteCount (before ++ gap ++ ['"'] ++ t.literal.toList) := by
    have hquote : byteCount ['"'] = 1 := rfl
    rw [hnext, Position.offset_after]
    simp only [byteCount_append, byteCount_cons, byteCount_nil] at hquote ⊢
    omega
  rw [hfst, hsnd]
  simpa using hsliced

end Lexer

/-! ## Whole texts -/

/-- The tokens of a text, apart from the last one, are not the end of the input. -/
lemma kind_ne_of_tokenize {text : String} {l : Lexed} (h : tokenize text = .ok l) :
    ∀ t ∈ l.tokens, t.kind ≠ .endOfInput := by
  obtain ⟨front, stop, hts, -, -, hfront⟩ := ((layout_of_tokenize h).reading rfl).ends
  obtain ⟨rfl, -⟩ := List.append_inj' hts rfl
  exact hfront

/-- What stands in front of a quote that is left over can be read. -/
lemma Dangling.exists_tokenize {front cs : List Char} (h : Dangling front cs) :
    ∃ l, tokenize (.ofList front) = .ok l := by
  obtain ⟨-, -, -, heven⟩ := h
  cases hread : tokenize (.ofList front) with
  | ok l => exact ⟨l, rfl⟩
  | error e =>
    obtain ⟨front', hdangling, -⟩ := tokenize_eq_error_iff.1 hread
    have hodd := hdangling.odd_count
    rw [String.toList_ofList] at hodd
    exact absurd heven (Nat.not_even_iff_odd.2 hodd)

namespace Lexer

lemma handsOut_of_tokenize {text : String} {l : Lexed} (h : tokenize text = .ok l) :
    (ofText text).HandsOut (l.toList.map .ok) := by
  have hlayout : Layout [] text.toList (l.tokens ++ [l.last]) := layout_of_tokenize h
  have hstop : EndsWord [] := by simp [EndsWord]
  have hands := hlayout.handsOut rfl hstop (fun p => .ok (.endAt p)) fun before gap hgap => by
      rw [List.append_nil]
      refine handsOut_finished ?_
      rw [Cursor.scan_finished hgap, Position.advanceOver_after]
  rw [List.append_nil, Position.after_nil] at hands
  rw [Lexed.toList, List.map_append]
  exact hands

lemma handsOut_of_dangling {text : String} {front : List Char}
    (h : Dangling front text.toList) {l : Lexed} (hl : tokenize (.ofList front) = .ok l) :
    (ofText text).HandsOut (l.tokens.map .ok ++ [.error ⟨.after front⟩]) := by
  have hlayout : Layout [] front (l.tokens ++ [l.last]) := by
    have hlayout := layout_of_tokenize hl
    rwa [String.toList_ofList] at hlayout
  obtain ⟨after, htext, hafter, -⟩ := h
  have hquote : EndsWord ('"' :: after) := by simp [EndsWord, isWordChar]
  have hands := hlayout.handsOut rfl hquote (fun p => .error ⟨p⟩) fun before gap hgap => by
      refine handsOut_unterminated ?_
      rw [Cursor.scan_blanks_append hgap, Cursor.scan_unterminated hafter,
        Position.advanceOver_after]
  rw [← htext, hlayout.eq_endAt rfl, Position.after_nil] at hands
  exact hands

/-- The items of a text, which can be read or has a quote left over. -/
lemma exists_items (text : String) :
    ∃ items : List (Except LexError Token),
      items.length ≤ text.length + 1 ∧
      (ofText text).HandsOut items ∧
      (∀ l, tokenize text = .ok l → items = l.toList.map .ok) ∧
      ∀ e, tokenize text = .error e → ∃ front after l,
        text.toList = front ++ '"' :: after ∧ '"' ∉ after ∧ e.position = .after front ∧
        tokenize (.ofList front) = .ok l ∧ Reading (.ofList front) 0 l.toList ∧
        (∀ t ∈ l.tokens, t.kind ≠ .endOfInput) ∧
        items = l.tokens.map .ok ++ [.error e] := by
  cases hread : tokenize text with
  | ok l =>
    have hle := (layout_of_tokenize hread).length_le
    rw [String.length_toList] at hle
    refine ⟨l.toList.map .ok, by rwa [List.length_map], handsOut_of_tokenize hread, ?_, by simp⟩
    intro l' hl
    rw [Except.ok.inj hl]
  | error e =>
    obtain ⟨front, hdangling, rfl⟩ := tokenize_eq_error_iff.1 hread
    obtain ⟨l, hl⟩ := hdangling.exists_tokenize
    have hlayout := layout_of_tokenize hl
    have hle := hlayout.length_le
    obtain ⟨after, htext, hafter, -⟩ := id hdangling
    refine ⟨l.tokens.map .ok ++ [.error ⟨.after front⟩], ?_,
      handsOut_of_dangling hdangling hl, by simp, fun e he => ?_⟩
    · rw [← String.length_toList, htext]
      simp only [Lexed.toList, String.toList_ofList, List.length_append, List.length_map,
        List.length_cons, List.length_nil] at hle ⊢
      omega
    · obtain rfl := Except.error.inj he
      exact ⟨front, after, l, htext, hafter, rfl, hl, hlayout.reading rfl,
        kind_ne_of_tokenize hl, rfl⟩

/-- **A lexer ends and stays ended.**  On every text it hands out a list of items that is at most
one longer than the text has characters, and nothing more however often it is asked.

* On a text that can be read the items are its tokens.
* On any other text they are the tokens of what stands in front of the quote that is left over,
  which that text has as its reading and of which none is the end of the input, and then the error
  once.
* Wherever the lexer stands between two calls, and however far a call looks ahead from there, what
  remains of the text can be cut out of it.  Every token but the end of the input moves the lexer
  on, and it can be cut out of the text from where it stands to where the lexer then stands.  So can
  its literal, from between the quotes if it is a string. -/
theorem hands_out_once (text : String) :
    ∃ items : List (Except LexError Token),
      items.length ≤ text.length + 1 ∧
      (∀ n, (ofText text).take n =
        (items.map some).take n ++ List.replicate (n - items.length) none) ∧
      (∀ l, tokenize text = .ok l → items = l.toList.map .ok) ∧
      (∀ e, tokenize text = .error e → ∃ front after l,
        text.toList = front ++ '"' :: after ∧ '"' ∉ after ∧ e.position = .after front ∧
        tokenize (.ofList front) = .ok l ∧ Reading (.ofList front) 0 l.toList ∧
        (∀ t ∈ l.tokens, t.kind ≠ .endOfInput) ∧
        items = l.tokens.map .ok ++ [.error e]) ∧
      ∀ n,
        let now := (ofText text).after n
        let next := (ofText text).after (n + 1)
        (∀ passed rest, now.cursor.rest = passed ++ rest →
          Sliced text (now.cursor.position.advanceOver passed).offset text.utf8ByteSize
            (.ofList rest)) ∧
        ∀ t, now.next?.1 = some (.ok t) → t.kind ≠ .endOfInput →
          now.cursor.position.offset ≤ t.position.offset ∧
          t.position.offset < next.cursor.position.offset ∧
          Sliced text t.position.offset next.cursor.position.offset (.ofList t.span) ∧
          if t.kind = .string then
            Sliced text (t.position.offset + 1) (next.cursor.position.offset - 1) t.literal
          else Sliced text t.position.offset next.cursor.position.offset t.literal := by
  obtain ⟨items, hlength, hands, hok, herror⟩ := exists_items text
  refine ⟨items, hlength, hands, hok, herror, fun n => ?_⟩
  have hplaced := (placedIn_ofText text).after n
  rw [after_succ]
  refine ⟨fun passed rest hrest => hplaced.sliced hrest, fun t ht hkind => ?_⟩
  obtain ⟨hle, hlt, hsliced⟩ := hplaced.sliced_token ht hkind
  refine ⟨hle, hlt, hsliced, ?_⟩
  split_ifs with hstring
  · exact hplaced.sliced_body ht hstring
  · rw [span, if_neg hstring, String.ofList_toList] at hsliced
    exact hsliced

end Lexer

end ExpiringStore
