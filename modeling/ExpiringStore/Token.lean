import ExpiringStore.Text.Position

/-!
# Tokens

A request is read as a sequence of tokens: the four keywords, other words, string literals, the
statement terminator, and the end of the input.
-/

namespace ExpiringStore

/-- The words that introduce a statement. -/
inductive Keyword where
  | set
  | get
  | del
  | auth
deriving DecidableEq, Repr

namespace Keyword

/-- How a keyword is written. -/
def word : Keyword → String
  | set => "SET"
  | get => "GET"
  | del => "DEL"
  | auth => "AUTH"

/-- The keyword that a word is, if it is one. Case matters. -/
def ofWord? (word : String) : Option Keyword :=
  [set, get, del, auth].find? (·.word == word)

end Keyword

namespace Token

/-- What a token is. -/
inductive Kind where
  /-- A word that introduces a statement. -/
  | keyword (k : Keyword)
  /-- A word that is neither a keyword nor a number. -/
  | identifier
  /-- A text between double quotes. -/
  | string
  /-- A word of ASCII digits. -/
  | number
  /-- A semicolon. -/
  | terminator
  /-- The end of the input. -/
  | endOfInput
deriving DecidableEq, Repr

end Token

/-- A token with its place. -/
structure Token where
  /-- What the token is. -/
  kind : Token.Kind
  /-- The token's text, for a string without its quotes. -/
  literal : String
  /-- Where the token begins. -/
  position : Position
deriving DecidableEq, Repr

namespace Token

/-- Whether a token can stand where a key is wanted: a word that is not a keyword. -/
def isKey (t : Token) : Bool :=
  t.kind = .identifier ∨ t.kind = .number

/-- Whether a token can stand where a value is wanted. -/
def isValue (t : Token) : Bool :=
  t.kind = .string ∨ t.isKey

/-- How a token is named in messages. -/
def describe (t : Token) : String :=
  match t.kind with
  | .keyword k => "keyword " ++ k.word
  | .identifier => "identifier '" ++ t.literal ++ "'"
  | .string => "string \"" ++ t.literal ++ "\""
  | .number => "number " ++ t.literal
  | .terminator => "';'"
  | .endOfInput => "end of input"

/-- The end of an input that ends at `p`. -/
def endAt (p : Position) : Token := ⟨.endOfInput, "", p⟩

end Token

end ExpiringStore
