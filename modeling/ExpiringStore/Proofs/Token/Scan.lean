import ExpiringStore.Token.Lexer
import Mathlib.Data.List.TakeWhile
import Mathlib.Tactic.Lemma

/-!
# What one scan finds

Every run of characters begins in one of five ways: with blanks up to its end, or with blanks and
then a semicolon, an unclosed quote, a closed string, or a word that ends where no word character
follows.  `Front` lists them (`front`), and for each of them there is one equation of `Cursor.scan`.
Whatever is proved of a scan is proved by these cases.
-/

namespace ExpiringStore

/-- A run of blanks. -/
def Blanks (cs : List Char) : Prop := ∀ c ∈ cs, isBlank c = true

/-- A text before which a word ends: one that is empty, or begins with a blank, a quote or a
semicolon. -/
def EndsWord (cs : List Char) : Prop := ∀ c ∈ cs.head?, isWordChar c = false

/-- The characters of a word. -/
def WordChars (cs : List Char) : Prop := cs ≠ [] ∧ ∀ c ∈ cs, isWordChar c = true

lemma isWordChar_iff {c : Char} :
    isWordChar c = true ↔ isBlank c = false ∧ c ≠ '"' ∧ c ≠ ';' := by
  simp [isWordChar, and_assoc]

/-- The ways in which a run of characters begins. -/
inductive Front : List Char → Prop
  | finished {gap} (hgap : Blanks gap) : Front gap
  | terminator {gap} (hgap : Blanks gap) (rest) : Front (gap ++ ';' :: rest)
  | unterminated {gap body} (hgap : Blanks gap) (hbody : '"' ∉ body) : Front (gap ++ '"' :: body)
  | string {gap body} (hgap : Blanks gap) (hbody : '"' ∉ body) (rest) :
      Front (gap ++ '"' :: (body ++ '"' :: rest))
  | word {gap word rest} (hgap : Blanks gap) (hword : WordChars word) (hrest : EndsWord rest) :
      Front (gap ++ (word ++ rest))

lemma endsWord_dropWhile (cs : List Char) : EndsWord (cs.dropWhile isWordChar) := by
  intro c hc
  have := List.head?_dropWhile_not isWordChar cs
  rw [Option.mem_def.1 hc] at this
  exact this

/-- A closing quote is found, or there is none. -/
lemma quote_not_mem_or_split (cs : List Char) :
    '"' ∉ cs ∨ ∃ body rest, cs = body ++ '"' :: rest ∧ '"' ∉ body := by
  by_cases h : '"' ∈ cs
  · obtain ⟨body, rest, rfl, hbody⟩ := List.eq_append_cons_of_mem h
    exact .inr ⟨body, rest, rfl, hbody⟩
  · exact .inl h

lemma front (cs : List Char) : Front cs := by
  have hgap : Blanks (cs.takeWhile isBlank) := fun c hc => List.mem_takeWhile_imp hc
  have hsplit : cs.takeWhile isBlank ++ cs.dropWhile isBlank = cs :=
    List.takeWhile_append_dropWhile
  have hhead := List.head?_dropWhile_not isBlank cs
  rw [← hsplit]
  match cs.dropWhile isBlank, hhead with
  | [], _ => simpa using Front.finished hgap
  | c :: rest, hc =>
    by_cases hsemi : c = ';'
    · subst hsemi
      exact .terminator hgap rest
    by_cases hquote : c = '"'
    · subst hquote
      rcases quote_not_mem_or_split rest with hbody | ⟨body, rest, rfl, hbody⟩
      · exact .unterminated hgap hbody
      · exact .string hgap hbody rest
    have hword : isWordChar c = true := isWordChar_iff.2 ⟨hc, hquote, hsemi⟩
    have hchars : WordChars (c :: rest.takeWhile isWordChar) := by
      refine ⟨by simp, ?_⟩
      intro d hd
      rcases List.mem_cons.1 hd with rfl | hd
      · exact hword
      · exact List.mem_takeWhile_imp hd
    have := Front.word hgap hchars (endsWord_dropWhile rest)
    rwa [List.cons_append, List.takeWhile_append_dropWhile] at this

namespace Cursor

/-- Blanks in front are stepped over. -/
lemma scan_blanks_append {gap : List Char} (hgap : Blanks gap) (rest : List Char) (p : Position) :
    (⟨gap ++ rest, p⟩ : Cursor).scan = (⟨rest, p.advanceOver gap⟩ : Cursor).scan := by
  unfold scan skip
  simp only [List.takeWhile_append_of_pos hgap, List.dropWhile_append_of_pos hgap,
    Position.advanceOver_append]

lemma scan_finished {gap : List Char} (hgap : Blanks gap) (p : Position) :
    (⟨gap, p⟩ : Cursor).scan = .finished (p.advanceOver gap) := by
  have := scan_blanks_append hgap [] p
  rw [List.append_nil] at this
  rw [this]
  rfl

lemma scan_terminator (rest : List Char) (p : Position) :
    (⟨';' :: rest, p⟩ : Cursor).scan =
      .token ⟨.terminator, ";", p⟩ ⟨rest, p.advanceOver [';']⟩ := by
  have hblank : isBlank ';' = false := by decide
  simp [scan, skip, hblank]

private lemma takeWhile_dropWhile_quote {body : List Char} (hbody : '"' ∉ body)
    (rest : List Char) :
    (body ++ '"' :: rest).takeWhile (· != '"') = body ∧
      (body ++ '"' :: rest).dropWhile (· != '"') = '"' :: rest := by
  have hpos : ∀ c ∈ body, (c != '"') = true := fun c hc =>
    bne_iff_ne.2 fun heq => hbody (heq ▸ hc)
  simp [List.takeWhile_append_of_pos hpos, List.dropWhile_append_of_pos hpos]

lemma scan_string {body : List Char} (hbody : '"' ∉ body) (rest : List Char) (p : Position) :
    (⟨'"' :: (body ++ '"' :: rest), p⟩ : Cursor).scan =
      .token ⟨.string, String.ofList body, p⟩ ⟨rest, p.advanceOver ('"' :: body ++ ['"'])⟩ := by
  have hblank : isBlank '"' = false := by decide
  obtain ⟨htake, hdrop⟩ := takeWhile_dropWhile_quote hbody rest
  simp [scan, skip, hblank, htake, hdrop, Position.advanceOver_append]

lemma scan_unterminated {body : List Char} (hbody : '"' ∉ body) (p : Position) :
    (⟨'"' :: body, p⟩ : Cursor).scan = .unterminated p := by
  have hblank : isBlank '"' = false := by decide
  have hpos : ∀ c ∈ body, (c != '"') = true := fun c hc =>
    bne_iff_ne.2 fun heq => hbody (heq ▸ hc)
  have hdrop : body.dropWhile (· != '"') = [] := List.dropWhile_eq_nil_iff.2 hpos
  simp [scan, skip, hblank, hdrop]

lemma scan_word {word rest : List Char} (hword : WordChars word) (hrest : EndsWord rest)
    (p : Position) :
    (⟨word ++ rest, p⟩ : Cursor).scan =
      .token ⟨.ofWord (String.ofList word), String.ofList word, p⟩
        ⟨rest, p.advanceOver word⟩ := by
  obtain ⟨hne, hchars⟩ := hword
  obtain ⟨first, more, rfl⟩ := List.exists_cons_of_ne_nil hne
  obtain ⟨hblank, hquote, hsemi⟩ := isWordChar_iff.1 (hchars first (by simp))
  have hmore : ∀ c ∈ more, isWordChar c = true := fun c hc => hchars c (by simp [hc])
  have hstop : rest.takeWhile isWordChar = [] ∧ rest.dropWhile isWordChar = rest := by
    cases rest with
    | nil => simp
    | cons c rest =>
      have : isWordChar c = false := hrest c (by simp)
      simp [this]
  simp only [scan, skip, List.cons_append, List.takeWhile_cons, List.dropWhile_cons, hblank]
  simp [List.takeWhile_append_of_pos hmore, List.dropWhile_append_of_pos hmore, hstop]

end Cursor

end ExpiringStore
