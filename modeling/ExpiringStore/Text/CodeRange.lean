/-!
# Sets of characters as ranges

A property of characters is given by a table of the closed ranges of code points that have it. The
ranges of a table ascend and leave a gap between each other: no code point is in two of them, and no
two of them could be joined.
-/

namespace ExpiringStore

namespace CodeRanges

/-- Whether every range is one, begins at `floor` or later, and leaves a gap before the next. -/
def ascendFrom (floor : Nat) : List (Nat × Nat) → Bool
  | [] => true
  | (low, high) :: rest => floor ≤ low && low ≤ high && ascendFrom (high + 2) rest

end CodeRanges

/-- A set of code points, as closed ranges. -/
structure CodeRanges where
  /-- The first and the last code point of each range. -/
  ranges : List (Nat × Nat)
  /-- The ranges ascend with gaps between them. -/
  ascending : CodeRanges.ascendFrom 0 ranges = true

namespace CodeRanges

/-- Whether a character lies in one of the ranges. -/
def covers (table : CodeRanges) (c : Char) : Bool :=
  table.ranges.any fun (low, high) => low ≤ c.toNat && c.toNat ≤ high

end CodeRanges

end ExpiringStore
