import ExpiringStore.Bytes

/-!
# Sinks

A sink takes bytes, and flushes what it has taken. A write may take a part of what it is offered,
take nothing, or fail; a flush may fail. `Sink.writeAll` offers what is left until all is taken, and
gives up at a failure or when nothing is taken. What a sink takes and flushes is kept as a list of
events.
-/

namespace ExpiringStore

/-- Why bytes could not be passed on. -/
inductive Fault where
  /-- Nobody is there to receive them. -/
  | brokenPipe
  /-- The other side has cut the connection. -/
  | connectionReset
  /-- The sink took nothing. -/
  | writeZero
deriving DecidableEq, Repr

/-- A receiver of bytes, over states of type `τ`. -/
structure Sink (τ : Type u) where
  /-- Offers bytes; the outcome is how many of them were taken. -/
  write : τ → Bytes → Except Fault Nat × τ
  /-- Passes on what was taken. -/
  flush : τ → Except Fault Unit × τ

namespace Sink

/-- What happened at a sink. -/
inductive Event where
  /-- Bytes were taken. -/
  | accepted (bytes : Bytes)
  /-- What was taken was passed on. -/
  | flushed
deriving DecidableEq

/-- The bytes taken. -/
def Event.bytes : Event → Bytes
  | accepted bytes => bytes
  | flushed => []

/-- The bytes taken in the course of events. -/
def bytesOf (events : List Event) : Bytes := events.flatMap Event.bytes

/-- What became of something passed to a sink. -/
structure Delivery (τ : Type u) where
  /-- Whether all of it was passed on. -/
  result : Except Fault Unit
  /-- What happened at the sink. -/
  events : List Event
  /-- The sink afterwards. -/
  sink : τ

variable {τ : Type u}

/-- Offers bytes until all are taken. -/
def writeAll (sink : Sink τ) (t : τ) (bytes : Bytes) : Delivery τ :=
  match _h : bytes with
  | [] => ⟨.ok (), [], t⟩
  | _ :: _ =>
    match sink.write t bytes with
    | (.error fault, t) => ⟨.error fault, [], t⟩
    | (.ok 0, t) => ⟨.error .writeZero, [.accepted []], t⟩
    | (.ok (n + 1), t) =>
      let rest := sink.writeAll t (bytes.drop (n + 1))
      { rest with events := .accepted (bytes.take (n + 1)) :: rest.events }
termination_by bytes.length
decreasing_by
  simp only [_h, List.length_drop, List.length_cons]
  omega

/-- Passes on one line: all of its bytes, and then a flush. -/
def writeLine (sink : Sink τ) (t : τ) (line : Bytes) : Delivery τ :=
  let written := sink.writeAll t line
  match written.result with
  | .error _ => written
  | .ok _ =>
    match sink.flush written.sink with
    | (.error fault, t) => ⟨.error fault, written.events, t⟩
    | (.ok _, t) => ⟨.ok (), written.events ++ [.flushed], t⟩

/-- A sink that takes everything. -/
def perfect : Sink Unit where
  write t bytes := (.ok bytes.length, t)
  flush t := (.ok (), t)

end Sink

end ExpiringStore
