import ExpiringStore.Proofs.Token.Layout

/-!
# Tokens as an exact reading of a text

`Reading` says what it means that tokens render a text without loss, in terms of byte offsets alone:
which token comes last, where each one stands and what its place says, that their spans do not
overlap, and that whatever no span covers is blank.  Nothing in it mentions the order in which a
text is scanned.

`tokenize_eq_ok_iff_reading` is the main result: the tokens of a text are its reading, and there is
no other one.  A reading is taken apart from the front, where its first token has only blanks before
it, into a `Layout`; and a layout gives all offsets of a reading.
-/

namespace ExpiringStore

open Token

/-- The tokens `ts` are a reading of `text` from the byte `start` on. -/
structure Reading (text : String) (start : Nat) (ts : List Token) : Prop where
  /-- The last token, and only that one, is the end of the input, after the last byte. -/
  ends : ∃ front stop, ts = front ++ [stop] ∧ stop.kind = .endOfInput ∧
    stop.position.offset = text.utf8ByteSize ∧ ∀ t ∈ front, t.kind ≠ .endOfInput
  /-- Every token stands in the text where its position says, and no word could be carried on. -/
  placed : ∀ t ∈ ts, start ≤ t.position.offset ∧
    ∃ before rest, text.toList = before ++ (t.span ++ rest) ∧ t.position = .after before ∧
      (t.IsWord → EndsWord rest)
  /-- The spans are in order and disjoint. -/
  ordered : ts.Pairwise fun t u => t.position.offset + byteCount t.span ≤ u.position.offset
  /-- A character outside of all spans is blank. -/
  covered : ∀ before c rest, text.toList = before ++ c :: rest → start ≤ byteCount before →
    isBlank c = true ∨ ∃ t ∈ ts, t.position.offset ≤ byteCount before ∧
      byteCount before < t.position.offset + byteCount t.span
  wellFormed : ∀ t ∈ ts, t.WellFormed

/-! ## Layouts are readings -/

/-- A character that begins within a run of characters is one of them. -/
lemma mem_of_byteCount_lt {a b e rest : List Char} {c : Char} (h : a ++ b = e ++ c :: rest)
    (hlt : byteCount e < byteCount a) : c ∈ a := by
  obtain ⟨f, rfl, hf⟩ := exists_append_of_byteCount_le h.symm hlt.le
  cases f with
  | nil => simp at hlt
  | cons d f =>
    rw [List.cons_append, List.cons.injEq] at hf
    simp [hf.1]

lemma wellFormed_endAt (p : Position) : (Token.endAt p).WellFormed where
  word h := absurd rfl h.2.2
  keyword h := absurd rfl h.2.2
  number h := absurd rfl h.2.2
  string h := by cases h
  terminator h := by cases h

lemma Layout.reading {text : String} {before rest : List Char} {ts : List Token}
    (h : Layout before rest ts) (htext : text.toList = before ++ rest) :
    Reading text (byteCount before) ts := by
  induction h with
  | @stop before gap hgap =>
    have hsize : text.utf8ByteSize = byteCount (before ++ gap) := by
      rw [← byteCount_toList, htext]
    refine ⟨⟨[], _, rfl, rfl, hsize.symm, by simp⟩, ?_, by simp, ?_, ?_⟩
    · intro t ht
      obtain rfl := List.mem_singleton.1 ht
      refine ⟨by simp [endAt], before ++ gap, [], by simp [span, endAt, htext], rfl, ?_⟩
      exact fun hword => absurd rfl hword.2.2
    · intro front c after hsplit hstart
      obtain ⟨e, rfl, hgap'⟩ := exists_append_of_byteCount_le (htext.symm.trans hsplit) hstart
      exact .inl (hgap c (by simp [hgap']))
    · intro t ht
      obtain rfl := List.mem_singleton.1 ht
      exact wellFormed_endAt _
  | @token before gap t rest ts hgap hkind hform hplace hend hrest ih =>
    have htext' : text.toList = (before ++ gap ++ t.span) ++ rest := by simp [htext]
    have hreading := ih htext'
    have hoffset : t.position.offset = byteCount (before ++ gap) := by rw [hplace]; rfl
    have hstart : t.position.offset + byteCount t.span = byteCount (before ++ gap ++ t.span) := by
      rw [hoffset, ← byteCount_append]
    refine ⟨?_, ?_, ?_, ?_, ?_⟩
    · obtain ⟨front, stop, rfl, hstop, hsize, hfront⟩ := hreading.ends
      refine ⟨t :: front, stop, rfl, hstop, hsize, ?_⟩
      exact List.forall_mem_cons.2 ⟨hkind, hfront⟩
    · refine List.forall_mem_cons.2 ⟨?_, ?_⟩
      · exact ⟨by simp [hoffset], before ++ gap, rest, by simp [htext], hplace, hend⟩
      · intro u hu
        obtain ⟨hle, hu⟩ := hreading.placed u hu
        rw [← hstart, hoffset] at hle
        exact ⟨by rw [byteCount_append] at hle; omega, hu⟩
    · refine List.pairwise_cons.2 ⟨?_, hreading.ordered⟩
      intro u hu
      rw [hstart]
      exact (hreading.placed u hu).1
    · intro front c after hsplit hle
      -- the character begins in the gap, in the span of `t`, or further on
      by_cases hlt : byteCount front < byteCount (before ++ gap)
      · left
        obtain ⟨e, rfl, he⟩ := exists_append_of_byteCount_le (htext.symm.trans hsplit) hle
        refine hgap c (mem_of_byteCount_lt he ?_)
        simp only [byteCount_append] at hlt
        omega
      by_cases hlt' : byteCount front < byteCount (before ++ gap ++ t.span)
      · exact .inr ⟨t, by simp, by omega, by omega⟩
      · rcases hreading.covered front c after hsplit (by omega) with hblank | ⟨u, hu, hcover⟩
        · exact .inl hblank
        · exact .inr ⟨u, List.mem_cons_of_mem t hu, hcover⟩
    · exact List.forall_mem_cons.2 ⟨hform, hreading.wellFormed⟩

/-! ## Readings are layouts -/

namespace Reading

variable {text : String} {start : Nat} {t : Token} {ts : List Token}

/-- What comes after the first token is a reading from the end of that token on. -/
lemma tail (h : Reading text start (t :: ts)) (hkind : t.kind ≠ .endOfInput) :
    Reading text (t.position.offset + byteCount t.span) ts := by
  obtain ⟨hfirst, hordered⟩ := List.pairwise_cons.1 h.ordered
  refine ⟨?_, ?_, hordered, ?_, fun u hu => h.wellFormed u (List.mem_cons_of_mem t hu)⟩
  · obtain ⟨front, stop, hts, hstop, hsize, hfront⟩ := h.ends
    cases front with
    | nil =>
      obtain ⟨rfl, rfl⟩ := List.cons.inj hts
      exact absurd hstop hkind
    | cons u front =>
      obtain ⟨rfl, rfl⟩ := List.cons.inj hts
      exact ⟨front, stop, rfl, hstop, hsize, (List.forall_mem_cons.1 hfront).2⟩
  · intro u hu
    exact ⟨hfirst u hu, (h.placed u (List.mem_cons_of_mem t hu)).2⟩
  · intro before c rest hsplit hle
    have hstart := (h.placed t (by simp)).1
    rcases h.covered before c rest hsplit (by omega) with hblank | ⟨u, hu, hcover⟩
    · exact .inl hblank
    · rcases List.mem_cons.1 hu with rfl | hu
      · omega
      · exact .inr ⟨u, hu, hcover⟩

/-- Only blanks stand between the start of a reading and its first token. -/
lemma exists_gap (h : Reading text start (t :: ts)) {before rest : List Char}
    (htext : text.toList = before ++ rest) (hstart : byteCount before = start) :
    ∃ gap after, rest = gap ++ (t.span ++ after) ∧ Blanks gap ∧
      t.position = .after (before ++ gap) ∧ (t.IsWord → EndsWord after) := by
  obtain ⟨hle, front, after, hsplit, hplace, hend⟩ := h.placed t (by simp)
  have hoffset : t.position.offset = byteCount front := by rw [hplace]; rfl
  obtain ⟨gap, rfl, rfl⟩ :=
    exists_append_of_byteCount_le (htext.symm.trans hsplit) (by omega)
  refine ⟨gap, after, rfl, ?_, hplace, hend⟩
  intro c hc
  obtain ⟨g, g', rfl⟩ := List.append_of_mem hc
  have hpos := c.utf8Size_pos
  have hbefore : byteCount (before ++ g) < t.position.offset := by
    simp only [hoffset, byteCount_append, byteCount_cons]
    omega
  have hsplit' : text.toList = (before ++ g) ++ c :: (g' ++ (t.span ++ after)) := by
    simp [hsplit]
  rcases h.covered _ c _ hsplit' (by simp [hstart]) with hblank | ⟨u, hu, hcover, -⟩
  · exact hblank
  · -- whatever covers the character begins no earlier than the first token
    rcases List.mem_cons.1 hu with rfl | hu
    · omega
    · have := (List.pairwise_cons.1 h.ordered).1 u hu
      omega

/-- A reading that begins with the end of the input has nothing left to read. -/
lemma eq_endAt (h : Reading text start (t :: ts)) (hkind : t.kind = .endOfInput)
    {before after : List Char} (htext : text.toList = before ++ (t.span ++ after))
    (hplace : t.position = .after before) :
    ts = [] ∧ t = .endAt (.after before) ∧ t.span = [] ∧ after = [] := by
  obtain ⟨front, stop, hts, -, hsize, hfront⟩ := h.ends
  cases front with
  | cons u front =>
    obtain ⟨rfl, -⟩ := List.cons.inj hts
    exact absurd hkind (hfront t (by simp))
  | nil =>
    obtain ⟨rfl, rfl⟩ := List.cons.inj hts
    rw [← byteCount_toList, htext, hplace, Position.offset_after] at hsize
    simp only [byteCount_append] at hsize
    have hspan : t.span = [] := eq_nil_of_byteCount_eq_zero (by omega)
    refine ⟨rfl, ?_, hspan, eq_nil_of_byteCount_eq_zero (by omega)⟩
    obtain ⟨kind, literal, position⟩ := t
    obtain rfl : kind = .endOfInput := hkind
    obtain rfl : position = .after before := hplace
    have hlit : literal = "" := by simpa [span] using hspan
    rw [hlit]
    rfl

lemma layout {before rest : List Char} (h : Reading text start ts)
    (htext : text.toList = before ++ rest) (hstart : byteCount before = start) :
    Layout before rest ts := by
  induction ts generalizing before rest start with
  | nil =>
    obtain ⟨front, stop, hts, -⟩ := h.ends
    simp at hts
  | cons t ts ih =>
    obtain ⟨gap, after, rfl, hgap, hplace, hend⟩ := h.exists_gap htext hstart
    have htext' : text.toList = (before ++ gap) ++ (t.span ++ after) := by simp [htext]
    by_cases hkind : t.kind = .endOfInput
    · obtain ⟨rfl, rfl, hspan, rfl⟩ := h.eq_endAt hkind htext' hplace
      rw [hspan, List.append_nil, List.append_nil]
      exact .stop hgap
    · refine .token hgap hkind (h.wellFormed t (by simp)) hplace hend ?_
      refine ih (h.tail hkind) (by simp [htext]) ?_
      rw [hplace, Position.offset_after, ← byteCount_append]

end Reading

lemma wellFormed_of_tokenize {text : String} {l : Lexed} (h : tokenize text = .ok l) :
    ∀ t ∈ l.toList, t.WellFormed :=
  ((layout_of_tokenize h).reading rfl).wellFormed

/-- **Tokens are an exact reading of their text.**  The tokens of a text are its one reading: they
have all the properties of `Reading`, and whatever has these properties is what is found.  In
particular a text that has a reading is tokenized, and two readings of it are the same. -/
theorem tokenize_eq_ok_iff_reading (text : String) (ts : List Token) :
    (tokenize text).map Lexed.toList = .ok ts ↔ Reading text 0 ts := by
  rw [tokenize_map_toList_eq_ok_iff]
  constructor
  · intro h
    exact h.reading rfl
  · intro h
    exact h.layout rfl rfl

end ExpiringStore
