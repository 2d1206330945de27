import ExpiringStore.Store.Basic
import ExpiringStore.Sweeper.Timing

/-!
# The sweeper

Nobody may ever ask again for a key whose entry has expired. The sweeper removes such entries: it
waits for its pause, makes a pass over the whole store, and sets its next pause by what the pass
found. Its clock counts whole milliseconds from its start, and a pass is made at the first
millisecond that is at least a pause after the pass before it.
-/

namespace ExpiringStore

/-- A sweeper between two milliseconds. -/
structure Sweeper where
  /-- The bounds of the pause. -/
  timing : Timing
  /-- The pause before the next pass. -/
  pause : Duration
  /-- The millisecond of the last pass, or of the start. -/
  last : Nat
  /-- The present millisecond. -/
  clock : Nat
  /-- Whether there are more passes to come. -/
  running : Bool

namespace Sweeper

/-- A sweeper that has just been started. -/
def start (timing : Timing) : Sweeper := ⟨timing, timing.interval, 0, 0, true⟩

/-- Ends a sweeper. -/
def stop (w : Sweeper) : Sweeper := { w with running := false }

/-- Whether it is time for a pass. -/
def due (w : Sweeper) : Bool :=
  w.running && w.last * nanosPerMilli + w.pause.nanos ≤ w.clock * nanosPerMilli

/-- Makes a pass. A sweeper whose next pause cannot be represented ends. -/
def pass (w : Sweeper) (store : Store α) (now : Instant) : Sweeper × Store α :=
  let entries := store.length
  let (removed, store) := store.removeExpired now
  match w.timing.next? w.pause removed entries with
  | some pause => ({ w with pause := pause, last := w.clock }, store)
  | none => (w.stop, store)

/-- Goes on by a millisecond. -/
def tick (w : Sweeper) (store : Store α) (now : Instant) : Sweeper × Store α :=
  let w := { w with clock := w.clock + 1 }
  if w.due then w.pass store now else (w, store)

/-- Goes on by some milliseconds while the store's clock stands still. -/
def advance (w : Sweeper) (store : Store α) (now : Instant) : Nat → Sweeper × Store α
  | 0 => (w, store)
  | n + 1 =>
    let (w, store) := w.tick store now
    w.advance store now n

end Sweeper

end ExpiringStore
