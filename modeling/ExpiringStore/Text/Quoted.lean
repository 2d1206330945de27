import ExpiringStore.Text.Extender
import ExpiringStore.Text.Invisible

/-!
# Texts in quotes, for inspection

`quoted` is how a text is shown when a value is inspected: between double quotes, and so that every
character of it can be told. The quote and the backslash are escaped by a backslash, four controls
have short names, and a character that would not be seen, or not apart from the one before it, is
named by its code point. Any other character stands as it is.
-/

namespace ExpiringStore

/-- The name of a character by its code point. -/
def codePointName (c : Char) : String :=
  "\\u\x7b" ++ String.ofList (Nat.toDigits 16 c.toNat) ++ "\x7d"

/-- One character inside quotes. -/
def escapeQuoted (c : Char) : String :=
  match c with
  | '\x00' => "\\0"
  | '\t' => "\\t"
  | '\n' => "\\n"
  | '\r' => "\\r"
  | '"' => "\\\""
  | '\\' => "\\\\"
  | c => if isExtender c || isInvisible c then codePointName c else String.singleton c

/-- A text between double quotes. -/
def quoted (text : String) : String :=
  "\"" ++ String.join (text.toList.map escapeQuoted) ++ "\""

end ExpiringStore
