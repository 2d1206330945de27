import ExpiringStore.Text.Blank
import ExpiringStore.Token

/-!
# Reading tokens

`Cursor.scan` reads one token. It skips blanks; a semicolon is a token of its own; a double quote
opens a string that runs to the next double quote; anything else is a word, which runs up to the
next blank, quote or semicolon. Only a string without a closing quote fails. Each token read brings
the cursor closer to the end of the text (`Cursor.length_rest_lt_of_scan`).

`tokenize` reads a whole text, and `Lexer` hands the tokens out one at a time; after the end of the
input or a failure it has nothing more to give.
-/

namespace ExpiringStore

/-- Whether a character can stand in a word. -/
def isWordChar (c : Char) : Bool := !isBlank c && c != '"' && c != ';'

/-- What a word is: a keyword, a number when all its characters are ASCII digits, else an
identifier. -/
def Token.Kind.ofWord (word : String) : Token.Kind :=
  match Keyword.ofWord? word with
  | some k => .keyword k
  | none => if word.toList.all Char.isDigit then .number else .identifier

/-- Why a text cannot be read as tokens: a string literal is not closed. -/
structure LexError where
  /-- Where the opening quote stands. -/
  position : Position
deriving DecidableEq, Repr

/-- The words for the error. -/
def LexError.message (e : LexError) : String :=
  "unterminated string literal starting at " ++ e.position.text

/-- The part of a text that is still to be read, and where it begins. -/
structure Cursor where
  /-- The characters to come. -/
  rest : List Char
  /-- Where the first of them stands. -/
  position : Position
deriving DecidableEq

namespace Cursor

/-- The whole of a text. -/
def ofText (text : String) : Cursor := ⟨text.toList, .start⟩

/-- The cursor past the characters that `p` holds of, up to the first it does not hold of. -/
def skip (c : Cursor) (p : Char → Bool) : Cursor :=
  ⟨c.rest.dropWhile p, c.position.advanceOver (c.rest.takeWhile p)⟩

/-- What a cursor finds: a token and the cursor past it, the end of the text, or a string that is
not closed. -/
inductive Scan where
  | token (t : Token) (next : Cursor)
  | finished (p : Position)
  | unterminated (p : Position)

/-- Reads the next token. -/
def scan (c : Cursor) : Scan :=
  let ⟨rest, start⟩ := c.skip isBlank
  match rest with
  | [] => .finished start
  | ';' :: after => .token ⟨.terminator, ";", start⟩ ⟨after, start.advance ';'⟩
  | '"' :: after =>
    let body : Cursor := ⟨after, start.advance '"'⟩
    let close := body.skip (· != '"')
    match close.rest with
    | [] => .unterminated start
    | quote :: beyond =>
      .token ⟨.string, String.ofList (after.takeWhile (· != '"')), start⟩
        ⟨beyond, close.position.advance quote⟩
  | first :: after =>
    let word := String.ofList (first :: after.takeWhile isWordChar)
    .token ⟨.ofWord word, word, start⟩ ((⟨after, start.advance first⟩ : Cursor).skip isWordChar)

/-- A token takes at least one character. -/
theorem length_rest_lt_of_scan {c next : Cursor} {t : Token} (h : c.scan = .token t next) :
    next.rest.length < c.rest.length := by
  have drop_le (p : Char → Bool) (cs : List Char) : (cs.dropWhile p).length ≤ cs.length :=
    (List.dropWhile_suffix p).length_le
  have blank := drop_le isBlank c.rest
  unfold scan at h
  simp only [skip] at h
  split at h
  · simp at h
  · rename_i after heq
    rw [heq] at blank
    cases h
    exact Nat.lt_of_succ_le blank
  · rename_i after heq
    rw [heq] at blank
    have string := drop_le (· != '"') after
    split at h
    · simp at h
    · rename_i quote beyond hclose
      rw [hclose] at string
      cases h
      simp only [List.length_cons] at blank string ⊢
      omega
  · rename_i first after _ _ heq
    rw [heq] at blank
    have word := drop_le isWordChar after
    cases h
    simp only [List.length_cons] at blank ⊢
    omega

end Cursor

/-- The tokens of a text, without the token for its end, and where the text ends. -/
structure Lexed where
  /-- The tokens before the end. -/
  tokens : List Token
  /-- Where the text ends. -/
  stop : Position
deriving DecidableEq

namespace Lexed

/-- The token for the end of the text. -/
def last (l : Lexed) : Token := .endAt l.stop

/-- All tokens; the last one, and only that one, is the end of the input. -/
def toList (l : Lexed) : List Token := l.tokens ++ [l.last]

end Lexed

/-- Reads all tokens from a cursor on, after those of `before`, the latest first. -/
def Cursor.tokenizeAfter (before : List Token) (c : Cursor) : Except LexError Lexed :=
  match _h : c.scan with
  | .token t next => next.tokenizeAfter (t :: before)
  | .finished p => .ok ⟨before.reverse, p⟩
  | .unterminated p => .error ⟨p⟩
termination_by c.rest.length
decreasing_by exact Cursor.length_rest_lt_of_scan _h

/-- Reads all tokens of a text. -/
def tokenize (text : String) : Except LexError Lexed := (Cursor.ofText text).tokenizeAfter []

/-- A reader that hands out the tokens of a text one at a time. -/
structure Lexer where
  /-- What is still to be read. -/
  cursor : Cursor
  /-- Whether the end of the input or a failure has been handed out. -/
  done : Bool

namespace Lexer

/-- A reader at the beginning of a text. -/
def ofText (text : String) : Lexer := ⟨.ofText text, false⟩

/-- The next item, if there is one, and the reader after it. -/
def next? (l : Lexer) : Option (Except LexError Token) × Lexer :=
  if l.done then (none, l)
  else
    match l.cursor.scan with
    | .token t next => (some (.ok t), ⟨next, false⟩)
    | .finished p => (some (.ok (.endAt p)), ⟨⟨[], p⟩, true⟩)
    | .unterminated p => (some (.error ⟨p⟩), ⟨l.cursor, true⟩)

/-- The outcome of `n` calls of `next?`. -/
def take (l : Lexer) : Nat → List (Option (Except LexError Token))
  | 0 => []
  | n + 1 => l.next?.1 :: l.next?.2.take n

end Lexer

end ExpiringStore
