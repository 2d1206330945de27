import ExpiringStore.Statement
import ExpiringStore.Text.Numeral
import ExpiringStore.Token.Lexer

/-!
# Reading statements

The tokens of a request fall into clauses: each runs up to a semicolon or to the end of the input,
and nothing after a last semicolon is no clause. Every clause is one statement,

* `SET key value`, with a number after it for a lifetime in milliseconds,
* `GET` or `DEL` and one or more keys,
* `AUTH key value`,

where a key is a word that is not a keyword and a value is a key or a string. The first clause that
is no statement decides the error, and in it the first token that cannot stand where it stands.
-/

namespace ExpiringStore

/-- What was wanted at the place of an error. -/
inductive Expected where
  | key
  | value
  | terminator
  | statement
deriving DecidableEq, Repr

/-- The words for what was wanted. -/
def Expected.text : Expected → String
  | .key => "key"
  | .value => "value"
  | .terminator => "';'"
  | .statement => "SET, GET, DEL or AUTH"

/-- Why a text is not a request. -/
inductive ParseError where
  /-- The text cannot be read as tokens. -/
  | unterminated (e : LexError)
  /-- A token stands where something else was wanted. -/
  | unexpected (found : Token) (expected : Expected)
  /-- A lifetime does not fit in 64 bits. -/
  | invalidTtl (number : Token)
deriving DecidableEq, Repr

/-- The words for an error. -/
def ParseError.message : ParseError → String
  | .unterminated e => e.message
  | .unexpected found expected =>
    "unexpected " ++ found.describe ++ " at " ++ found.position.text ++ ", expected " ++
      expected.text
  | .invalidTtl number => "invalid ttl '" ++ number.literal ++ "' at " ++ number.position.text

/-- The tokens of one statement, and the semicolon or the end of the input that closes them. -/
structure Clause where
  /-- The tokens of the statement. -/
  tokens : List Token
  /-- The token that closes them. -/
  stop : Token
deriving DecidableEq

/-- Puts a token in front of clauses. A semicolon closes a clause of its own; any other token goes
into the first clause, or into one closed by `last` if there is none. -/
def Clause.prepend (last t : Token) (clauses : List Clause) : List Clause :=
  if t.kind = .terminator then ⟨[], t⟩ :: clauses
  else
    match clauses with
    | [] => [⟨[t], last⟩]
    | c :: cs => ⟨t :: c.tokens, c.stop⟩ :: cs

/-- Cuts tokens into clauses, the last of which is closed by `last` if no semicolon closes it. -/
def Clause.split (last : Token) (tokens : List Token) : List Clause :=
  tokens.foldr (prepend last) []

/-- The clauses of a text. -/
def Lexed.clauses (l : Lexed) : List Clause := Clause.split l.last l.tokens

namespace Clause

/-- The tokens of a clause that are still to be read. -/
abbrev Remainder := List Token

/-- Takes a token that `accept` holds of. The token that closes the clause is found where no other
is left. -/
def demand (stop : Token) (accept : Token → Bool) (expected : Expected) :
    Remainder → Except ParseError (Token × Remainder)
  | [] => .error (.unexpected stop expected)
  | t :: rest => if accept t then .ok (t, rest) else .error (.unexpected t expected)

/-- Takes a key. -/
def demandKey (stop : Token) (tokens : Remainder) : Except ParseError (String × Remainder) :=
  (demand stop Token.isKey .key tokens).map fun (t, rest) => (t.literal, rest)

/-- Takes a value. -/
def demandValue (stop : Token) (tokens : Remainder) : Except ParseError (String × Remainder) :=
  (demand stop Token.isValue .value tokens).map fun (t, rest) => (t.literal, rest)

/-- Takes a key and all keys that follow it. -/
def demandKeys (stop : Token) (tokens : Remainder) :
    Except ParseError (List String × Remainder) := do
  let (key, rest) ← demandKey stop tokens
  return (key :: (rest.takeWhile Token.isKey).map Token.literal, rest.dropWhile Token.isKey)

/-- Takes a lifetime in milliseconds, if a number comes next. -/
def lifetime : Remainder → Except ParseError (Option Duration × Remainder)
  | [] => .ok (none, [])
  | t :: rest =>
    if t.kind = .number then
      match Numeral.read UInt64.size t.literal with
      | .ok ms => .ok (some (.ofMillis (UInt64.ofNat ms)), rest)
      | .error _ => .error (.invalidTtl t)
    else .ok (none, t :: rest)

/-- Refuses whatever is left of a clause. -/
def finish (statement : Statement) : Remainder → Except ParseError Statement
  | [] => .ok statement
  | t :: _ => .error (.unexpected t .terminator)

/-- The rest of a statement after its keyword. -/
def body (stop : Token) (tokens : Remainder) : Keyword → Except ParseError Statement
  | .set => do
    let (key, rest) ← demandKey stop tokens
    let (value, rest) ← demandValue stop rest
    let (ttl, rest) ← lifetime rest
    finish (.set key value ttl) rest
  | .get => do
    let (keys, rest) ← demandKeys stop tokens
    finish (.get keys) rest
  | .del => do
    let (keys, rest) ← demandKeys stop tokens
    finish (.delete keys) rest
  | .auth => do
    let (username, rest) ← demandKey stop tokens
    let (password, rest) ← demandValue stop rest
    finish (.auth username password) rest

/-- The statement that a clause is. -/
def statement (c : Clause) : Except ParseError Statement :=
  match c.tokens with
  | [] => .error (.unexpected c.stop .statement)
  | t :: rest =>
    match t.kind with
    | .keyword k => body c.stop rest k
    | _ => .error (.unexpected t .statement)

end Clause

/-- The statements of a request. -/
def parse (text : String) : Except ParseError (List Statement) :=
  match tokenize text with
  | .error e => .error (.unterminated e)
  | .ok l => l.clauses.mapM Clause.statement

end ExpiringStore
