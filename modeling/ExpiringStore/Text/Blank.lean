import ExpiringStore.Text.CodeRange

/-!
# Blank characters

Two notions of blank. Between tokens every character with the Unicode property `White_Space` is
skipped. A line that came over a connection is passed over when all of its bytes are ASCII blanks;
that set is the smaller one, for it leaves out the vertical tab.
-/

namespace ExpiringStore

/-- The code points with the Unicode property `White_Space`. -/
def blankRanges : CodeRanges where
  ranges :=
    [(0x09, 0x0D), (0x20, 0x20), (0x85, 0x85), (0xA0, 0xA0), (0x1680, 0x1680), (0x2000, 0x200A),
     (0x2028, 0x2029), (0x202F, 0x202F), (0x205F, 0x205F), (0x3000, 0x3000)]
  ascending := by decide

/-- Whether a character has the property `White_Space`. -/
def isBlank (c : Char) : Bool := blankRanges.covers c

/-- Whether a byte is an ASCII blank: tab, line feed, form feed, carriage return or space. -/
def isBlankByte (b : UInt8) : Bool :=
  b == 0x09 || b == 0x0A || b == 0x0C || b == 0x0D || b == 0x20

end ExpiringStore
