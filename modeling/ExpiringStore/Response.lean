import ExpiringStore.Text.Utf8

/-!
# Responses

Every statement is answered by one line. Line feeds and carriage returns inside a line are escaped,
so a line feed stands only at its end; inside the quotes around a value the quote and the backslash
are escaped as well.
-/

namespace ExpiringStore

/-- The outcome of one statement. -/
inductive Response where
  /-- Something was stored or removed. -/
  | success
  /-- The values of the keys asked for, in their order; `none` for a key without a live value. -/
  | values (slots : List (Option Bytes))
  /-- A user was recognised. -/
  | authenticated
  /-- A user was not recognised. -/
  | invalidCredentials
  /-- The request could not be read, or the statement was refused. -/
  | error (message : String)
deriving DecidableEq

namespace Response

/-- Whether the response reports a failure of the request. -/
def isError : Response → Bool
  | .error _ => true
  | _ => false

/-- The byte that ends a line. -/
def lineFeed : UInt8 := 0x0A

/-- What stands in the slot of a key without a live value. -/
def absent : String := "(nil)"

/-- One byte of a line. Bytes inside quotes have two more escapes. -/
def escapeByte (inQuotes : Bool) (b : UInt8) : Bytes :=
  if b = 0x0A then [0x5C, 0x6E]
  else if b = 0x0D then [0x5C, 0x72]
  else if inQuotes ∧ (b = 0x22 ∨ b = 0x5C) then [0x5C, b]
  else [b]

/-- Bytes as they stand in a line. -/
def escape (inQuotes : Bool) (bytes : Bytes) : Bytes := bytes.flatMap (escapeByte inQuotes)

/-- One slot of a list of values. -/
def slot : Option Bytes → Bytes
  | some value => 0x22 :: escape true value ++ [0x22]
  | none => Utf8.encode absent

/-- The line of a response without its line feed. -/
def content : Response → Bytes
  | success => Utf8.encode "Success"
  | authenticated => Utf8.encode "Successfully authenticated"
  | invalidCredentials => Utf8.encode "Invalid Credentials"
  | error message => Utf8.encode "ERROR: " ++ escape false (Utf8.encode message)
  | values slots => 0x5B :: (Utf8.encode ", ").intercalate (slots.map slot) ++ [0x5D]

/-- The line of a response. -/
def line (r : Response) : Bytes := r.content ++ [lineFeed]

/-- The line as a text for people, without its line feed. -/
def display (r : Response) : String := Utf8.decodeLossy r.content

end Response

end ExpiringStore
