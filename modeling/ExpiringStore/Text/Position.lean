/-!
# Places in a text

A position counts what stands before it: bytes from the start, lines, and characters since the last
line feed. `Position.advance` steps over one character and `Position.advanceOver` over a run, and
stepping over two runs in turn is stepping over their concatenation.
-/

namespace ExpiringStore

/-- A place in a text. -/
structure Position where
  /-- Bytes of UTF-8 before this place. -/
  offset : Nat
  /-- The line, counted from one. -/
  line : Nat
  /-- The column, counted in characters from one. -/
  column : Nat
deriving DecidableEq, Repr, Inhabited

namespace Position

/-- The place before the first character. -/
def start : Position := ⟨0, 1, 1⟩

/-- The place just after the character `c` that stands at `p`. A line feed begins a line. -/
def advance (p : Position) (c : Char) : Position :=
  if c = '\n' then ⟨p.offset + c.utf8Size, p.line + 1, 1⟩
  else ⟨p.offset + c.utf8Size, p.line, p.column + 1⟩

/-- The place just after the run `cs` that stands at `p`. -/
def advanceOver (p : Position) (cs : List Char) : Position :=
  cs.foldl advance p

/-- How a position is named in messages: `line:column`. -/
def text (p : Position) : String :=
  toString p.line ++ ":" ++ toString p.column

@[simp] theorem advanceOver_nil (p : Position) : p.advanceOver [] = p := rfl

@[simp] theorem advanceOver_cons (p : Position) (c : Char) (cs : List Char) :
    p.advanceOver (c :: cs) = (p.advance c).advanceOver cs := rfl

theorem advanceOver_append (p : Position) (cs ds : List Char) :
    p.advanceOver (cs ++ ds) = (p.advanceOver cs).advanceOver ds :=
  List.foldl_append ..

end Position

end ExpiringStore
