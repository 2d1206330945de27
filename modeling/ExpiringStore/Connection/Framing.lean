import ExpiringStore.Bytes

/-!
# Lines

Bytes that arrive on a connection are cut at line feeds. What stands after the last line feed is not
a line yet. A carriage return right before the line feed does not belong to the line.
-/

namespace ExpiringStore

/-- Bytes cut into lines. -/
structure Frames where
  /-- The complete lines, without their line feeds. -/
  lines : List Bytes
  /-- What follows the last line feed. -/
  rest : Bytes
deriving DecidableEq

namespace Frames

/-- Puts a byte in front. A line feed ends an empty line; any other byte goes into the first line,
or into the rest if there is no line. -/
def prepend (b : UInt8) (f : Frames) : Frames :=
  if b = 0x0A then ⟨[] :: f.lines, f.rest⟩
  else
    match f.lines with
    | [] => ⟨[], b :: f.rest⟩
    | line :: lines => ⟨(b :: line) :: lines, f.rest⟩

/-- Cuts bytes into lines. -/
def ofBytes (bytes : Bytes) : Frames := bytes.foldr prepend ⟨[], []⟩

/-- A line without a carriage return at its end. -/
def withoutReturn (line : Bytes) : Bytes :=
  if line.getLast? = some 0x0D then line.dropLast else line

/-- The lines as requests. -/
def requests (f : Frames) : List Bytes := f.lines.map withoutReturn

end Frames

end ExpiringStore
