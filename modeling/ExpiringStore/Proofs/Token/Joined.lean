import ExpiringStore.Proofs.Token.Layout

/-!
# Texts that stand behind other texts

A place in a text moves when another text is put in front of it: by the bytes and the lines of that
text, and on the first line by what stands on its last line (`Position.movedBy`).  Tokens and errors
move with their places, and nothing else about them changes, since a scan does not look back
(`Cursor.tokenizeAfter_movedBy`).

So two texts that are put together are read one after the other, provided that no word is carried
on at the joint: the tokens are those of the first text and then, moved, those of the second
(`tokenize_append`).  Blanks at the end of the first text and at the beginning of the second stay
between tokens.
-/

namespace ExpiringStore

/-! ## Places -/

/-- The place in a text after `before` was put in front of it. -/
def Position.movedBy (p : Position) (before : List Char) : Position where
  offset := byteCount before + p.offset
  line := before.count '\n' + p.line
  column :=
    if p.line = 1 then (before.rtakeWhile (· ≠ '\n')).length + p.column else p.column

/-- What stands on the last line of two texts. -/
private lemma length_rtakeWhile_append (before cs : List Char) :
    ((before ++ cs).rtakeWhile (· ≠ '\n')).length =
      if cs.count '\n' = 0 then
        (before.rtakeWhile (· ≠ '\n')).length + (cs.rtakeWhile (· ≠ '\n')).length
      else (cs.rtakeWhile (· ≠ '\n')).length := by
  have hwhole : (cs.reverse.takeWhile (· ≠ '\n')).length = cs.reverse.length ↔
      cs.reverse.takeWhile (· ≠ '\n') = cs.reverse :=
    ⟨(List.takeWhile_prefix _).eq_of_length, congrArg List.length⟩
  have hall : (cs.reverse.takeWhile (· ≠ '\n')).length = cs.reverse.length ↔
      cs.count '\n' = 0 := by
    rw [hwhole, List.takeWhile_eq_self_iff, List.count_eq_zero]
    simp only [List.mem_reverse, decide_eq_true_eq]
    exact ⟨fun h hmem => h _ hmem rfl, fun h c hc he => h (he ▸ hc)⟩
  simp only [List.rtakeWhile, List.reverse_append, List.takeWhile_append, List.length_reverse]
  by_cases hcount : cs.count '\n' = 0
  · have hlength := hall.2 hcount
    rw [List.length_reverse] at hlength
    rw [if_pos hlength, if_pos hcount, List.length_append, List.length_reverse, hlength]
    exact Nat.add_comm _ _
  · have hlength := mt hall.1 hcount
    rw [List.length_reverse] at hlength
    rw [if_neg hlength, if_neg hcount]

/-- A place that was counted from what stands before it. -/
lemma Position.movedBy_after (before cs : List Char) :
    (after cs).movedBy before = after (before ++ cs) := by
  simp only [movedBy, after, length_rtakeWhile_append, byteCount_append, List.count_append]
  by_cases hcount : cs.count '\n' = 0
  · simp [hcount]
    omega
  · simp [hcount]
    omega

/-! ## Tokens -/

/-- The token after a text was put in front of its text. -/
def Token.movedBy (t : Token) (before : List Char) : Token :=
  { t with position := t.position.movedBy before }

@[simp] lemma Token.kind_movedBy (t : Token) (before : List Char) :
    (t.movedBy before).kind = t.kind := rfl

@[simp] lemma Token.literal_movedBy (t : Token) (before : List Char) :
    (t.movedBy before).literal = t.literal := rfl

def LexError.movedBy (e : LexError) (before : List Char) : LexError :=
  ⟨e.position.movedBy before⟩

namespace Cursor

/-- The same scan with a text in front. -/
lemma scan_movedBy (before passed cs : List Char) :
    (⟨cs, .after (before ++ passed)⟩ : Cursor).scan =
      match (⟨cs, .after passed⟩ : Cursor).scan with
      | .token t next => .token (t.movedBy before) ⟨next.rest, next.position.movedBy before⟩
      | .finished p => .finished (p.movedBy before)
      | .unterminated p => .unterminated (p.movedBy before) := by
  have hmoved (xs : List Char) : (Position.after (before ++ passed)).advanceOver xs =
      ((Position.after passed).advanceOver xs).movedBy before := by
    rw [Position.advanceOver_after, Position.advanceOver_after, Position.movedBy_after,
      List.append_assoc]
  cases front cs with
  | finished hgap => rw [scan_finished hgap, scan_finished hgap, hmoved]
  | terminator hgap rest =>
    rw [scan_blanks_append hgap, scan_blanks_append hgap, scan_terminator, scan_terminator,
      ← Position.advanceOver_append, ← Position.advanceOver_append, hmoved, hmoved]
    rfl
  | unterminated hgap hbody =>
    rw [scan_blanks_append hgap, scan_blanks_append hgap, scan_unterminated hbody,
      scan_unterminated hbody, hmoved]
  | string hgap hbody rest =>
    rw [scan_blanks_append hgap, scan_blanks_append hgap, scan_string hbody, scan_string hbody,
      ← Position.advanceOver_append, ← Position.advanceOver_append, hmoved, hmoved]
    rfl
  | word hgap hword hrest =>
    rw [scan_blanks_append hgap, scan_blanks_append hgap, scan_word hword hrest,
      scan_word hword hrest, ← Position.advanceOver_append, ← Position.advanceOver_append, hmoved,
      hmoved]
    rfl

/-- The same tokens with a text in front, behind the tokens `acc'` of that text. -/
lemma tokenizeAfter_movedBy (before passed cs : List Char) (acc acc' : List Token) :
    (⟨cs, .after (before ++ passed)⟩ : Cursor).tokenizeAfter
        (acc.map (·.movedBy before) ++ acc') =
      match (⟨cs, .after passed⟩ : Cursor).tokenizeAfter acc with
      | .ok l => .ok ⟨acc'.reverse ++ l.tokens.map (·.movedBy before), l.stop.movedBy before⟩
      | .error e => .error (e.movedBy before) := by
  have hmoved := scan_movedBy before passed cs
  cases hscan : (⟨cs, .after passed⟩ : Cursor).scan with
  | finished p =>
    rw [hscan] at hmoved
    rw [tokenizeAfter_of_finished hscan, tokenizeAfter_of_finished hmoved]
    simp only [List.reverse_append, List.map_reverse]
  | unterminated p =>
    rw [hscan] at hmoved
    rw [tokenizeAfter_of_unterminated hscan, tokenizeAfter_of_unterminated hmoved]
    rfl
  | token t next =>
    have hlt := length_rest_lt_of_scan hscan
    rw [hscan] at hmoved
    rw [tokenizeAfter_of_token hscan, tokenizeAfter_of_token hmoved]
    obtain ⟨gap, rest, rfl, -, -, -, -, -, rfl⟩ := exists_of_scan_eq_token hscan
    rw [Position.movedBy_after]
    exact tokenizeAfter_movedBy before (passed ++ gap ++ t.span) rest (t :: acc) acc'
termination_by cs.length

/-- Blanks in front are stepped over. -/
lemma tokenizeAfter_blanks_append {gap : List Char} (hgap : Blanks gap) (rest : List Char)
    (p : Position) (acc : List Token) :
    (⟨gap ++ rest, p⟩ : Cursor).tokenizeAfter acc =
      (⟨rest, p.advanceOver gap⟩ : Cursor).tokenizeAfter acc := by
  have hsame := scan_blanks_append hgap rest p
  cases hscan : (⟨rest, p.advanceOver gap⟩ : Cursor).scan with
  | finished q =>
    rw [tokenizeAfter_of_finished hscan, tokenizeAfter_of_finished (hsame.trans hscan)]
  | unterminated q =>
    rw [tokenizeAfter_of_unterminated hscan, tokenizeAfter_of_unterminated (hsame.trans hscan)]
  | token t next =>
    rw [tokenizeAfter_of_token hscan, tokenizeAfter_of_token (hsame.trans hscan)]

end Cursor

/-! ## Two texts -/

lemma Token.WellFormed.span_ne_nil {t : Token} (h : t.WellFormed) (hkind : t.kind ≠ .endOfInput) :
    t.span ≠ [] := by
  by_cases hstring : t.kind = .string
  · simp [span, hstring]
  · rw [span, if_neg hstring]
    by_cases hterminator : t.kind = .terminator
    · simp [h.terminator hterminator]
    · exact (h.word ⟨hstring, hterminator, hkind⟩).1

/-- Where no characters are left there is only the end of the input. -/
lemma Layout.eq_singleton {before : List Char} {ts : List Token} (h : Layout before [] ts) :
    ∃ stop, ts = [stop] := by
  generalize hcs : [] = cs at h
  cases h with
  | stop hgap => exact ⟨_, rfl⟩
  | token hgap hkind hform =>
    have hspan := hform.span_ne_nil hkind
    simp_all

/-- A word that ends before a text ends before all that may stand behind that text. -/
lemma EndsWord.append {cs ds : List Char} (hcs : EndsWord cs) (hds : cs = [] → EndsWord ds) :
    EndsWord (cs ++ ds) := by
  cases cs with
  | nil => exact hds rfl
  | cons c cs => exact hcs

/-- A text with another one behind it is read to its end, and then the other one is. -/
lemma Layout.tokenizeAfter_append {before cs : List Char} {ts : List Token}
    (h : Layout before cs ts) {tokens : List Token} {stop : Token} (hts : ts = tokens ++ [stop])
    {ds : List Char} (hjoint : ∀ t ∈ tokens.getLast?, t.IsWord → EndsWord ds)
    (acc : List Token) :
    (⟨cs ++ ds, .after before⟩ : Cursor).tokenizeAfter acc =
      (⟨ds, .after (before ++ cs)⟩ : Cursor).tokenizeAfter (tokens.reverse ++ acc) := by
  induction h generalizing tokens acc with
  | @stop before gap hgap =>
    have htokens : tokens = [] := by
      have hlength := congrArg List.length hts
      simpa using hlength
    rw [Cursor.tokenizeAfter_blanks_append hgap, Position.advanceOver_after, htokens]
    rfl
  | @token before gap t rest ts hgap hkind hform hplace hend hrest ih =>
    cases tokens with
    | nil =>
      obtain ⟨-, rfl⟩ := List.cons.inj hts
      cases hrest
    | cons u tokens =>
      obtain ⟨rfl, rfl⟩ := List.cons.inj hts
      -- with no more text there are no more tokens, and then the joint is behind this one
      have hnext : t.IsWord → EndsWord (rest ++ ds) := by
        intro hword
        refine (hend hword).append fun hnil => ?_
        rw [hnil] at hrest
        obtain ⟨_, hstop⟩ := hrest.eq_singleton
        have htokens : tokens = [] := by
          have hlength := congrArg List.length hstop
          simpa using hlength
        exact hjoint t (by rw [htokens]; rfl) hword
      have hscan : (⟨gap ++ (t.span ++ (rest ++ ds)), .after before⟩ : Cursor).scan =
          .token t ⟨rest ++ ds, .after (before ++ gap ++ t.span)⟩ := by
        rw [Cursor.scan_blanks_append hgap, Position.advanceOver_after, ← hplace,
          Cursor.scan_span_append hkind hform hnext, hplace, Position.advanceOver_after]
      have hlater : ∀ u ∈ tokens.getLast?, u.IsWord → EndsWord ds := by
        intro u hu
        refine hjoint u ?_
        rw [List.getLast?_cons, Option.mem_def.1 hu]
        rfl
      rw [List.append_assoc, List.append_assoc, Cursor.tokenizeAfter_of_token hscan,
        ih rfl hlater (t :: acc)]
      simp only [List.append_assoc, List.reverse_cons, List.singleton_append]

/-- **Two texts that are put together** are read one after the other. -/
theorem tokenize_append {a : String} {l : Lexed} (ha : tokenize a = .ok l) (b : String)
    (hjoint : ∀ t ∈ l.tokens.getLast?, t.IsWord → EndsWord b.toList) :
    tokenize (a ++ b) =
      match tokenize b with
      | .ok r =>
        .ok ⟨l.tokens ++ r.tokens.map (·.movedBy a.toList), r.stop.movedBy a.toList⟩
      | .error e => .error (e.movedBy a.toList) := by
  have hlayout : Layout [] a.toList (l.tokens ++ [l.last]) := layout_of_tokenize ha
  have hmoved := Cursor.tokenizeAfter_movedBy a.toList [] b.toList [] l.tokens.reverse
  rw [List.map_nil, List.nil_append, List.append_nil, List.reverse_reverse] at hmoved
  have happend := hlayout.tokenizeAfter_append rfl hjoint []
  rw [List.nil_append, List.append_nil, hmoved] at happend
  rw [tokenize, Cursor.ofText, String.toList_append]
  exact happend

end ExpiringStore
