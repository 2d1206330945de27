/-!
# Decimal numerals

A numeral is an optional plus sign and one or more ASCII digits, with a value below a bound. It is
read from left to right and the leftmost fault is the one reported; a character that is no digit is
a fault before the value is looked at.
-/

namespace ExpiringStore.Numeral

/-- Why a text is not a numeral. -/
inductive Fault where
  /-- The text is empty. -/
  | empty
  /-- A character is not a digit, or a sign stands alone. -/
  | invalidDigit
  /-- The value reaches the bound. -/
  | tooLarge
deriving DecidableEq, Repr

/-- The words for a fault. -/
def Fault.message : Fault → String
  | .empty => "cannot parse integer from empty string"
  | .invalidDigit => "invalid digit found in string"
  | .tooLarge => "number too large to fit in target type"

/-- The value of a digit. -/
def digitValue (c : Char) : Nat := c.toNat - '0'.toNat

/-- Reads digits after a part with the value `value`. -/
def readDigits (bound : Nat) (value : Nat) : List Char → Except Fault Nat
  | [] => .ok value
  | c :: rest =>
    if c.isDigit then
      let next := value * 10 + digitValue c
      if next < bound then readDigits bound next rest else .error .tooLarge
    else .error .invalidDigit

/-- Reads a numeral with a value below `bound`. -/
def read (bound : Nat) (text : String) : Except Fault Nat :=
  match text.toList with
  | [] => .error .empty
  | ['+'] => .error .invalidDigit
  | '+' :: digits => readDigits bound 0 digits
  | digits => readDigits bound 0 digits

end ExpiringStore.Numeral
