import ExpiringStore.Sweeper.Significant
import ExpiringStore.Time.Duration

/-!
# How long to wait between passes

A pass of the sweeper removes some of the entries it finds. If it removes more than a quarter of
them, the next pause is half as long; if it finds entries and removes none, the next pause is twice
as long; otherwise the pause stays. Halving stops at the shortest pause and doubling at the longest.

The share is a quotient of two double-precision numbers, so both counts are first rounded to 53
significant bits. The quotient of two such numbers rounds to more than a quarter exactly when it is
more than a quarter, which is why no rounding of the quotient is seen here.
-/

namespace ExpiringStore

/-- The pauses of a sweeper. -/
structure Timing where
  /-- The pause before the first pass. -/
  interval : Duration
  /-- The shortest pause that halving leads to. -/
  shortest : Duration
  /-- The longest pause that doubling leads to. -/
  longest : Duration
deriving DecidableEq

namespace Timing

/-- Pauses between ten milliseconds and a second, a tenth of a second at first. -/
def standard : Timing := ⟨.ofMillis 100, .ofMillis 10, .ofMillis 1000⟩

/-- Whether a pass removed more than a quarter of the entries. -/
def busy (removed entries : UInt64) : Bool :=
  roundSignificant 53 entries.toNat < 4 * roundSignificant 53 removed.toNat

/-- The pause after a pass that removed so many of the entries, or `none` if the pause was to be
doubled and its double cannot be represented. -/
def next? (t : Timing) (pause : Duration) (removed entries : UInt64) : Option Duration :=
  if removed = 0 then
    if entries = 0 then some pause else pause.double?.map (min · t.longest)
  else if busy removed entries then some (max pause.half t.shortest)
  else some pause

/-- The pauses after each of some passes, up to the first that cannot be represented. -/
def pauses (t : Timing) (pause : Duration) : List (UInt64 × UInt64) → Option (List Duration)
  | [] => some []
  | (removed, entries) :: passes => do
    let next ← t.next? pause removed entries
    return next :: (← t.pauses next passes)

end Timing

end ExpiringStore
