import ExpiringStore.Proofs.Statement.Joined
import ExpiringStore.Proofs.Token.Pieces

/-!
# Requests that are written out

Reading a request undoes writing it.  `Writes` has the ways to write a statement in pieces: a value
in quotes or, if it could be a key, bare; a lifetime in milliseconds with any number of zeros in
front; everything else in one way.  `WritesAll` puts semicolons between statements, and perhaps one
at the end, and `Spaced` has the ways to put blanks between the pieces.

`parse_eq_ok_iff_written` is the main result: the texts that are parsed to statements are exactly
the texts that these statements can be written as, and only a statement whose keys, values and
lifetimes can be written (`Statement.WellFormed`) is ever found.  The pieces of a text are those of
its tokens, so what is left to show is that a phrase of the grammar is a way to write the statement
that it means (`Phrase.writes`), and every way is a phrase (`Writes.exists_phrase`).
-/

namespace ExpiringStore

open Grammar

/-! ## Statements that can be written -/

/-- A text that can stand bare. -/
def IsName (w : String) : Prop :=
  w ≠ "" ∧ (∀ c ∈ w.toList, isBlank c = false ∧ c ≠ '"' ∧ c ≠ ';') ∧
    w ∉ ["SET", "GET", "DEL", "AUTH"]

/-- A statement that can be written: keys can stand bare, values can stand in quotes, and a lifetime
is a number of milliseconds of 64 bits. -/
def Statement.WellFormed : Statement → Prop
  | set key value ttl =>
    IsName key ∧ '"' ∉ value.toList ∧ ∀ d ∈ ttl, ∃ ms < 2 ^ 64, d.nanos = ms * nanosPerMilli
  | get keys => keys ≠ [] ∧ ∀ key ∈ keys, IsName key
  | delete keys => keys ≠ [] ∧ ∀ key ∈ keys, IsName key
  | auth username password => IsName username ∧ '"' ∉ password.toList

/-! ## The ways to write them -/

/-- The ways to write a value. -/
inductive WritesValue (value : String) : Piece → Prop
  | quoted : WritesValue value (.quoted value)
  | bare (hname : IsName value) : WritesValue value (.word value)

/-- The ways to write a lifetime. -/
inductive WritesLifetime : Option Duration → List Piece → Prop
  | none : WritesLifetime none []
  | some {d} (zeros : Nat) {ms : Nat} (hms : d.nanos = ms * nanosPerMilli) :
      WritesLifetime (some d) [.word (Numeral.written zeros ms)]

/-- The ways to write a statement. -/
inductive Writes : Statement → List Piece → Prop
  | set {key value ttl v ms} (hvalue : WritesValue value v) (httl : WritesLifetime ttl ms) :
      Writes (.set key value ttl) (.word "SET" :: .word key :: v :: ms)
  | get (keys) : Writes (.get keys) (.word "GET" :: keys.map .word)
  | delete (keys) : Writes (.delete keys) (.word "DEL" :: keys.map .word)
  | auth {username password v} (hpassword : WritesValue password v) :
      Writes (.auth username password) [.word "AUTH", .word username, v]

/-- The ways to write statements, with semicolons between them and perhaps one at the end. -/
inductive WritesAll : List Statement → List Piece → Prop
  | nil : WritesAll [] []
  | single {s pieces} (h : Writes s pieces) : WritesAll [s] pieces
  | ended {s pieces} (h : Writes s pieces) : WritesAll [s] (pieces ++ [.semicolon])
  | cons {s pieces next rest more} (h : Writes s pieces) (hrest : WritesAll (next :: rest) more) :
      WritesAll (s :: next :: rest) (pieces ++ .semicolon :: more)

/-! ## Words -/

lemma isName_iff {w : String} :
    IsName w ↔ WordChars w.toList ∧ ∀ k : Keyword, w ≠ k.word := by
  have hempty : w.toList ≠ [] ↔ w ≠ "" := by simp
  have hkeywords : w ∉ ["SET", "GET", "DEL", "AUTH"] ↔ ∀ k : Keyword, w ≠ k.word := by
    simp only [List.mem_cons, List.not_mem_nil, or_false, not_or]
    refine ⟨fun ⟨hset, hget, hdel, hauth⟩ k => ?_,
      fun h => ⟨h .set, h .get, h .del, h .auth⟩⟩
    cases k <;> assumption
  simp only [IsName, WordChars, isWordChar_iff, hempty, hkeywords, and_assoc]

lemma wordChars_keyword (k : Keyword) : WordChars k.word.toList := by
  have hall : k.word.toList.all isWordChar = true := by cases k <;> decide
  exact ⟨by cases k <;> decide, List.all_eq_true.1 hall⟩

lemma isWordChar_of_isDigit {c : Char} (hc : c.isDigit = true) : isWordChar c = true := by
  have hall : ∀ d < 10, (Nat.toDigits 10 d).all isWordChar = true := by decide
  obtain ⟨hdigits, hlt⟩ := Numeral.toDigits_digitValue hc
  exact List.all_eq_true.1 (hall _ hlt) c (by rw [hdigits]; exact List.mem_singleton_self c)

lemma wordChars_written (zeros n : Nat) : WordChars (Numeral.written zeros n).toList := by
  refine ⟨Numeral.written_ne_nil zeros n, fun c hc => ?_⟩
  exact isWordChar_of_isDigit (Numeral.isDigit_of_mem_written hc)

lemma Token.Proper.eq_of_piece {t : Token} (h : t.Proper) {w : String}
    (hpiece : t.piece = .word w) :
    t.kind = .ofWord w ∧ t.literal = w := by
  have hword : t.IsWord := h.isWord (by rw [hpiece]; trivial)
  obtain rfl : t.literal = w := by
    rw [Token.piece_of_isWord hword] at hpiece
    exact Piece.word.inj hpiece
  exact ⟨h.wellFormed.kind_eq hword, rfl⟩

lemma kind_ofWord_of_isName {w : String} (hw : IsName w) :
    Token.Kind.ofWord w = .identifier ∨ Token.Kind.ofWord w = .number := by
  have hno : Keyword.ofWord? w = none :=
    Option.eq_none_iff_forall_ne_some.2 fun k hk =>
      (isName_iff.1 hw).2 k (Keyword.ofWord?_eq_some_iff.1 hk)
  unfold Token.Kind.ofWord
  rw [hno]
  by_cases hdigits : w.toList.all Char.isDigit = true <;> simp [hdigits]

/-! ## Phrases are ways to write statements -/

namespace Grammar

lemma Lead.piece_eq {k : Keyword} (t : Lead k) (h : t.1.WellFormed) : t.1.piece = .word k.word := by
  have hword : t.1.IsWord := by simp [Token.IsWord, t.2]
  rw [Token.piece_of_isWord hword, (h.keyword hword k).1 t.2]

lemma Semicolon.piece_eq (t : Semicolon) : t.1.piece = .semicolon := by
  simp [Token.piece, t.2]

lemma Key.piece_eq (k : Key) (h : k.1.WellFormed) :
    k.1.piece = .word k.1.literal ∧ IsName k.1.literal := by
  have hword : k.1.IsWord := by rcases k.2 with hkind | hkind <;> simp [Token.IsWord, hkind]
  refine ⟨Token.piece_of_isWord hword, isName_iff.2 ⟨h.word hword, fun keyword heq => ?_⟩⟩
  have hkeyword := (h.keyword hword keyword).2 heq
  rcases k.2 with hkind | hkind <;> simp [hkind] at hkeyword

lemma Value.writes (v : Value) (h : v.1.WellFormed) :
    WritesValue v.1.literal v.1.piece ∧ '"' ∉ v.1.literal.toList := by
  rcases v.2 with hstring | hkey
  · have hpiece : v.1.piece = .quoted v.1.literal := by simp [Token.piece, hstring]
    rw [hpiece]
    exact ⟨.quoted, h.string hstring⟩
  · obtain ⟨hpiece, hname⟩ := Key.piece_eq ⟨v.1, hkey⟩ h
    rw [hpiece]
    exact ⟨.bare hname, fun hquote => (hname.2.1 _ hquote).2.1 rfl⟩

lemma Lifetime.piece_eq (l : Lifetime) (h : l.1.WellFormed) :
    ∃ zeros, l.1.piece = .word (Numeral.written zeros (Numeral.value l.1.literal.toList)) := by
  have hword : l.1.IsWord := by simp [Token.IsWord, l.2.1]
  have hdigits := (h.number hword).1 l.2.1
  rw [Utf8.forall_mem_encode_digit_iff] at hdigits
  obtain ⟨zeros, hzeros⟩ := Numeral.exists_written (h.word hword).1 hdigits
  exact ⟨zeros, by rw [Token.piece_of_isWord hword, ← String.toList_inj.1 hzeros]⟩

lemma Lead.map_piece_eq {k : Keyword} (lead : Lead k) (keys : List Key)
    (h : ∀ t ∈ lead.1 :: keys.map Subtype.val, t.WellFormed) :
    (lead.1 :: keys.map Subtype.val).map Token.piece =
        .word k.word :: (keys.map (·.1.literal)).map .word ∧
      ∀ w ∈ keys.map (·.1.literal), IsName w := by
  obtain ⟨hlead, hkeys⟩ := List.forall_mem_cons.1 h
  have hkey (key : Key) (hmem : key ∈ keys) := key.piece_eq (hkeys _ (List.mem_map_of_mem hmem))
  rw [List.map_cons, lead.piece_eq hlead, List.map_map, List.map_map]
  refine ⟨congrArg _ (List.map_congr_left fun key hmem => (hkey key hmem).1), fun w hw => ?_⟩
  obtain ⟨key, hmem, rfl⟩ := List.mem_map.1 hw
  exact (hkey key hmem).2

/-- **A phrase is a way to write the statement that it means.** -/
lemma Phrase.writes (p : Phrase) (h : ∀ t ∈ p.tokens, t.WellFormed) :
    p.statement.WellFormed ∧ Writes p.statement (p.tokens.map Token.piece) := by
  cases p with
  | set lead key value lifetime =>
    have hlead := lead.piece_eq (h _ (by simp [tokens]))
    obtain ⟨hkey, hname⟩ := key.piece_eq (h _ (by simp [tokens]))
    obtain ⟨hvalue, hquote⟩ := value.writes (h _ (by simp [tokens]))
    have hlifetime : (∀ d ∈ lifetime.map Lifetime.duration,
        ∃ ms < 2 ^ 64, d.nanos = ms * nanosPerMilli) ∧
        WritesLifetime (lifetime.map Lifetime.duration)
          ((lifetime.map Subtype.val).toList.map Token.piece) := by
      cases lifetime with
      | none => exact ⟨by simp, .none⟩
      | some l =>
        obtain ⟨zeros, hpiece⟩ := l.piece_eq (h _ (by simp [tokens]))
        refine ⟨fun d hd => ⟨_, l.2.2, ?_⟩, ?_⟩
        · rw [← Option.some_inj.1 hd]
          rfl
        · simp only [Option.map_some, Option.toList_some, List.map_cons, List.map_nil, hpiece]
          exact .some zeros rfl
    refine ⟨⟨hname, hquote, hlifetime.1⟩, ?_⟩
    simp only [tokens, List.cons_append, List.nil_append, List.map_cons, hlead, hkey]
    exact .set hvalue hlifetime.2
  | get lead first others =>
    obtain ⟨hpieces, hnames⟩ := lead.map_piece_eq (first :: others) h
    exact ⟨⟨List.cons_ne_nil _ _, hnames⟩, hpieces ▸ .get _⟩
  | delete lead first others =>
    obtain ⟨hpieces, hnames⟩ := lead.map_piece_eq (first :: others) h
    exact ⟨⟨List.cons_ne_nil _ _, hnames⟩, hpieces ▸ .delete _⟩
  | auth lead username password =>
    have hlead := lead.piece_eq (h _ (by simp [tokens]))
    obtain ⟨husername, hname⟩ := username.piece_eq (h _ (by simp [tokens]))
    obtain ⟨hpassword, hquote⟩ := password.writes (h _ (by simp [tokens]))
    refine ⟨⟨hname, hquote⟩, ?_⟩
    simp only [tokens, List.map_cons, List.map_nil, hlead, husername]
    exact .auth hpassword

lemma Program.writes (p : Program) (h : ∀ t ∈ p.tokens, t.WellFormed) :
    (∀ s ∈ p.statements, s.WellFormed) ∧
      WritesAll p.statements (p.tokens.map Token.piece) := by
  induction p using Program.cons_induction with
  | single first last =>
    obtain ⟨hform, hwrites⟩ := first.writes fun t ht => h t (by simp [tokens, ht])
    refine ⟨List.forall_mem_singleton.2 hform, ?_⟩
    cases last with
    | none =>
      rw [tokens_single]
      exact .single hwrites
    | some t =>
      rw [tokens_ended, List.map_append, List.map_singleton, t.piece_eq]
      exact .ended hwrites
  | cons first semicolon p ih =>
    rw [tokens_cons] at h ⊢
    obtain ⟨hform, hwrites⟩ := first.writes fun t ht => h t (by simp [ht])
    obtain ⟨hforms, hrest⟩ := ih fun t ht => h t (by simp [ht])
    refine ⟨List.forall_mem_cons.2 ⟨hform, hforms⟩, ?_⟩
    rw [List.map_append, List.map_cons, semicolon.piece_eq]
    exact .cons hwrites hrest

end Grammar

/-! ## Ways to write statements are phrases -/

variable {tokens : List Token}

lemma exists_lead {t : Token} (ht : t.Proper) (k : Keyword) (hpiece : t.piece = .word k.word) :
    ∃ lead : Lead k, lead.1 = t := by
  have hkind : t.kind = .keyword k := by
    rw [(ht.eq_of_piece hpiece).1]
    exact Token.kind_ofWord_eq_keyword_iff.2 rfl
  exact ⟨⟨t, hkind⟩, rfl⟩

lemma exists_key {t : Token} (ht : t.Proper) {w : String} (hpiece : t.piece = .word w)
    (hw : IsName w) : ∃ k : Key, k.1 = t ∧ k.1.literal = w := by
  obtain ⟨hkind, hliteral⟩ := ht.eq_of_piece hpiece
  exact ⟨⟨t, by rw [hkind]; exact kind_ofWord_of_isName hw⟩, rfl, hliteral⟩

lemma exists_keys (htokens : ∀ t ∈ tokens, t.Proper) {keys : List String}
    (hpieces : tokens.map Token.piece = keys.map .word) (hkeys : ∀ key ∈ keys, IsName key) :
    ∃ ks : List Key, ks.map Subtype.val = tokens ∧ ks.map (·.1.literal) = keys := by
  induction keys generalizing tokens with
  | nil => exact ⟨[], (List.map_eq_nil_iff.1 hpieces).symm, rfl⟩
  | cons key keys ih =>
    obtain ⟨t, others, rfl, hpiece, hothers⟩ := List.map_eq_cons_iff.1 hpieces
    obtain ⟨ht, hproper⟩ := List.forall_mem_cons.1 htokens
    obtain ⟨hkey, hnames⟩ := List.forall_mem_cons.1 hkeys
    obtain ⟨k, rfl, rfl⟩ := exists_key ht hpiece hkey
    obtain ⟨ks, rfl, rfl⟩ := ih hproper hothers hnames
    exact ⟨k :: ks, rfl, rfl⟩

lemma exists_lead_keys (k : Keyword) (htokens : ∀ t ∈ tokens, t.Proper) {keys : List String}
    (hpieces : tokens.map Token.piece = .word k.word :: keys.map .word) (hne : keys ≠ [])
    (hkeys : ∀ key ∈ keys, IsName key) :
    ∃ (lead : Lead k) (first : Key) (others : List Key),
      lead.1 :: (first :: others).map Subtype.val = tokens ∧
        (first :: others).map (·.1.literal) = keys := by
  obtain ⟨t, rest, rfl, ht, hrest⟩ := List.map_eq_cons_iff.1 hpieces
  obtain ⟨htp, hproper⟩ := List.forall_mem_cons.1 htokens
  obtain ⟨lead, rfl⟩ := exists_lead htp k ht
  obtain ⟨ks, rfl, rfl⟩ := exists_keys hproper hrest hkeys
  cases ks with
  | nil => exact absurd rfl hne
  | cons first others => exact ⟨lead, first, others, rfl, rfl⟩

lemma exists_value {t : Token} (ht : t.Proper) {value : String}
    (h : WritesValue value t.piece) : ∃ v : Value, v.1 = t ∧ v.1.literal = value := by
  generalize hpiece : t.piece = piece at h
  cases h with
  | quoted =>
    have hkind : t.kind = .string ∧ t.literal = value := by
      unfold Token.piece at hpiece
      split at hpiece
      · exact ⟨‹_›, Piece.quoted.inj hpiece⟩
      · cases hpiece
      · cases hpiece
    exact ⟨⟨t, .inl hkind.1⟩, rfl, hkind.2⟩
  | bare hname =>
    obtain ⟨k, rfl, hliteral⟩ := exists_key ht hpiece hname
    exact ⟨⟨k.1, .inr k.2⟩, rfl, hliteral⟩

lemma exists_lifetime (htokens : ∀ t ∈ tokens, t.Proper) {ttl : Option Duration}
    (httl : ∀ d ∈ ttl, ∃ ms < 2 ^ 64, d.nanos = ms * nanosPerMilli)
    (h : WritesLifetime ttl (tokens.map Token.piece)) :
    ∃ l : Option Lifetime, (l.map Subtype.val).toList = tokens ∧ l.map Lifetime.duration = ttl := by
  generalize hpieces : tokens.map Token.piece = pieces at h
  cases h with
  | none => exact ⟨none, (List.map_eq_nil_iff.1 hpieces).symm, rfl⟩
  | @some d zeros ms hms =>
    obtain ⟨t, others, rfl, hpiece, hnil⟩ := List.map_eq_cons_iff.1 hpieces
    obtain rfl := List.map_eq_nil_iff.1 hnil
    obtain ⟨hkind, hliteral⟩ := (htokens t List.mem_cons_self).eq_of_piece hpiece
    have hnumber : t.kind = .number := by
      rw [hkind]
      exact Token.kind_ofWord_eq_number_iff.2 fun c hc => Numeral.isDigit_of_mem_written hc
    have hvalue : Numeral.value t.literal.toList = ms := by rw [hliteral, Numeral.value_written]
    have hlt : ms < 2 ^ 64 := by
      obtain ⟨ms', hlt, hms'⟩ := httl d rfl
      have hsame : ms = ms' := Nat.eq_of_mul_eq_mul_right (by decide) (hms.symm.trans hms')
      exact hsame ▸ hlt
    refine ⟨some ⟨t, hnumber, hvalue.symm ▸ hlt⟩, rfl, congrArg some (Duration.ext ?_)⟩
    rw [hms]
    exact congrArg (· * nanosPerMilli) hvalue

/-- **A way to write a statement is a phrase that means it.** -/
lemma Writes.exists_phrase {s : Statement} {pieces : List Piece} (h : Writes s pieces)
    (hs : s.WellFormed) (htokens : ∀ t ∈ tokens, t.Proper)
    (hpieces : tokens.map Token.piece = pieces) :
    ∃ p : Phrase, p.tokens = tokens ∧ p.statement = s := by
  cases h with
  | set hvalue httl =>
    obtain ⟨hname, -, hlimit⟩ := hs
    obtain ⟨t, front, rfl, ht, hfront⟩ := List.map_eq_cons_iff.1 hpieces
    obtain ⟨u, others, rfl, hu, hothers⟩ := List.map_eq_cons_iff.1 hfront
    obtain ⟨v, last, rfl, rfl, rfl⟩ := List.map_eq_cons_iff.1 hothers
    simp only [List.forall_mem_cons] at htokens
    obtain ⟨htp, hup, hvp, hlast⟩ := htokens
    obtain ⟨lead, rfl⟩ := exists_lead htp .set ht
    obtain ⟨key, rfl, rfl⟩ := exists_key hup hu hname
    obtain ⟨value, rfl, rfl⟩ := exists_value hvp hvalue
    obtain ⟨l, rfl, rfl⟩ := exists_lifetime hlast hlimit httl
    exact ⟨.set lead key value l, rfl, rfl⟩
  | get keys =>
    obtain ⟨lead, first, others, rfl, rfl⟩ := exists_lead_keys .get htokens hpieces hs.1 hs.2
    exact ⟨.get lead first others, rfl, rfl⟩
  | delete keys =>
    obtain ⟨lead, first, others, rfl, rfl⟩ := exists_lead_keys .del htokens hpieces hs.1 hs.2
    exact ⟨.delete lead first others, rfl, rfl⟩
  | auth hpassword =>
    obtain ⟨t, front, rfl, ht, hfront⟩ := List.map_eq_cons_iff.1 hpieces
    obtain ⟨u, last, rfl, hu, hlast⟩ := List.map_eq_cons_iff.1 hfront
    obtain ⟨v, rest, rfl, rfl, hnil⟩ := List.map_eq_cons_iff.1 hlast
    obtain rfl := List.map_eq_nil_iff.1 hnil
    simp only [List.forall_mem_cons] at htokens
    obtain ⟨htp, hup, hvp, -⟩ := htokens
    obtain ⟨lead, rfl⟩ := exists_lead htp .auth ht
    obtain ⟨username, rfl, rfl⟩ := exists_key hup hu hs.1
    obtain ⟨password, rfl, rfl⟩ := exists_value hvp hpassword
    exact ⟨.auth lead username password, rfl, rfl⟩

lemma Token.kind_of_piece {t : Token} (h : t.piece = .semicolon) : t.kind = .terminator := by
  unfold piece at h
  split at h
  · cases h
  · assumption
  · cases h

lemma WritesAll.exists_program {ast : List Statement} {pieces : List Piece}
    (h : WritesAll ast pieces) (hne : ast ≠ []) (hast : ∀ s ∈ ast, s.WellFormed)
    (htokens : ∀ t ∈ tokens, t.Proper) (hpieces : tokens.map Token.piece = pieces) :
    ∃ p : Program, p.tokens = tokens ∧ p.statements = ast := by
  induction h generalizing tokens with
  | nil => exact absurd rfl hne
  | single h =>
    obtain ⟨p, rfl, rfl⟩ := h.exists_phrase (hast _ List.mem_cons_self) htokens hpieces
    exact ⟨⟨p, [], none⟩, Program.tokens_single p, rfl⟩
  | ended h =>
    obtain ⟨front, last, rfl, hfront, hlast⟩ := List.map_eq_append_iff.1 hpieces
    obtain ⟨t, others, rfl, ht, hnil⟩ := List.map_eq_cons_iff.1 hlast
    obtain rfl := List.map_eq_nil_iff.1 hnil
    obtain ⟨p, rfl, rfl⟩ := h.exists_phrase (hast _ List.mem_cons_self)
      (fun u hu => htokens u (List.mem_append_left _ hu)) hfront
    exact ⟨⟨p, [], some ⟨t, Token.kind_of_piece ht⟩⟩, Program.tokens_ended p _, rfl⟩
  | cons h _ ih =>
    obtain ⟨front, others, rfl, hfront, hothers⟩ := List.map_eq_append_iff.1 hpieces
    obtain ⟨t, rest, rfl, ht, hrest⟩ := List.map_eq_cons_iff.1 hothers
    obtain ⟨hs, hforms⟩ := List.forall_mem_cons.1 hast
    obtain ⟨p, rfl, rfl⟩ := h.exists_phrase hs
      (fun u hu => htokens u (List.mem_append_left _ hu)) hfront
    obtain ⟨q, rfl, hq⟩ := ih (List.cons_ne_nil _ _) hforms
      (fun u hu => htokens u (by simp [hu])) hrest
    refine ⟨.cons p ⟨t, Token.kind_of_piece ht⟩ q, Program.tokens_cons _ _ _, ?_⟩
    rw [← hq]
    rfl

/-! ## What is written can stand in a text -/

lemma WritesValue.wellFormed {value : String} {v : Piece} (h : WritesValue value v)
    (hquote : '"' ∉ value.toList) : v.WellFormed := by
  cases h with
  | quoted => exact hquote
  | bare hname => exact (isName_iff.1 hname).1

lemma Writes.wellFormed {s : Statement} {pieces : List Piece} (h : Writes s pieces)
    (hs : s.WellFormed) : ∀ p ∈ pieces, p.WellFormed := by
  have hkeys {keys : List String} (hnames : ∀ key ∈ keys, IsName key) :
      ∀ p ∈ keys.map Piece.word, p.WellFormed := by
    intro p hp
    obtain ⟨key, hkey, rfl⟩ := List.mem_map.1 hp
    exact (isName_iff.1 (hnames key hkey)).1
  cases h with
  | set hvalue httl =>
    obtain ⟨hname, hquote, -⟩ := hs
    refine List.forall_mem_cons.2 ⟨wordChars_keyword .set, List.forall_mem_cons.2
      ⟨(isName_iff.1 hname).1, List.forall_mem_cons.2 ⟨hvalue.wellFormed hquote, ?_⟩⟩⟩
    cases httl with
    | none => exact nofun
    | some zeros _ => exact List.forall_mem_singleton.2 (wordChars_written zeros _)
  | get keys => exact List.forall_mem_cons.2 ⟨wordChars_keyword .get, hkeys hs.2⟩
  | delete keys => exact List.forall_mem_cons.2 ⟨wordChars_keyword .del, hkeys hs.2⟩
  | auth hpassword =>
    exact List.forall_mem_cons.2 ⟨wordChars_keyword .auth, List.forall_mem_cons.2
      ⟨(isName_iff.1 hs.1).1, List.forall_mem_singleton.2 (hpassword.wellFormed hs.2)⟩⟩

lemma WritesAll.wellFormed {ast : List Statement} {pieces : List Piece} (h : WritesAll ast pieces)
    (hast : ∀ s ∈ ast, s.WellFormed) : ∀ p ∈ pieces, p.WellFormed := by
  induction h with
  | nil => exact nofun
  | single h => exact h.wellFormed (hast _ List.mem_cons_self)
  | ended h =>
    exact List.forall_mem_append.2 ⟨h.wellFormed (hast _ List.mem_cons_self),
      List.forall_mem_singleton.2 trivial⟩
  | cons h _ ih =>
    obtain ⟨hs, hforms⟩ := List.forall_mem_cons.1 hast
    exact List.forall_mem_append.2 ⟨h.wellFormed hs, List.forall_mem_cons.2 ⟨trivial, ih hforms⟩⟩

/-! ## The main result -/

/-- **Reading undoes writing.**  A text is parsed to statements exactly when each of them can be
written and the text is one of the ways to write them: in pieces as `WritesAll` has them, with
blanks around them as `Spaced` has them. -/
theorem parse_eq_ok_iff_written (text : String) (ast : List Statement) :
    parse text = .ok ast ↔
      (∀ s ∈ ast, s.WellFormed) ∧ ∃ pieces, WritesAll ast pieces ∧ Spaced pieces text.toList := by
  constructor
  · intro h
    cases hl : tokenize text with
    | error e => simp [parse, hl] at h
    | ok l =>
      obtain ⟨hproper, hspaced⟩ := proper_of_tokenize hl
      by_cases hnil : l.tokens = []
      · obtain rfl : ast = [] := by
          simpa [parse, hl, Lexed.clauses, hnil, Clause.split, pure, Except.pure] using h.symm
        rw [hnil] at hspaced
        exact ⟨List.forall_mem_nil _, [], .nil, hspaced⟩
      · obtain ⟨p, hp, rfl⟩ := exists_program_of_parse hl h hnil
        rw [← hp] at hspaced hproper
        obtain ⟨hforms, hwrites⟩ := p.writes fun t ht => (hproper t ht).wellFormed
        exact ⟨hforms, _, hwrites, hspaced⟩
  · rintro ⟨hforms, pieces, hwrites, hspaced⟩
    obtain ⟨l, hl, hpieces⟩ :=
      (exists_tokenize_iff_spaced text pieces).2 ⟨hwrites.wellFormed hforms, hspaced⟩
    simp only [parse, hl, Lexed.clauses]
    by_cases hne : ast = []
    · subst hne
      cases hwrites
      rw [List.map_eq_nil_iff.1 hpieces]
      rfl
    · obtain ⟨p, hp, rfl⟩ := hwrites.exists_program hne hforms (proper_of_tokenize hl).1 hpieces
      rw [← hp]
      exact Clause.mapM_statement_program p (hp ▸ numbered_of_tokenize hl)

example : parse "SET k\"SET\"005;GET 1 k ;" =
    .ok [.set "k" "SET" (some (.ofMillis 5)), .get ["1", "k"]] := by
  decide +kernel

end ExpiringStore
