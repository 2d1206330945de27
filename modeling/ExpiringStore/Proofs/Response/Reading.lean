import ExpiringStore.Proofs.Connection.Framing
import ExpiringStore.Proofs.Response.Line
import Mathlib.Data.Set.Function

/-!
# Reading responses back

A client sees nothing but bytes.  `Response.readAll` cuts them at line feeds and reads each line:
three lines are fixed, and a list of values is read byte by byte by a `Reader`, which undoes the
escapes between quotes.  It gets back the responses that were sent, whatever bytes the values hold
(`readAll_flatMap_line`): a quote within a value cannot be taken for the end of it, a separator or a
`(nil)` within a value cannot be taken for one outside, and no value can begin a line.

The argument runs along the line.  Each piece of it takes the reader from one place to the next, and
the pieces are put together because the reader is a fold over the bytes.
-/

namespace ExpiringStore.Response

/-- Where a reader of a list of values stands.  The slots that were read, and the bytes of the value
under way, are kept with the latest first. -/
inductive Reader where
  /-- Where a slot begins. -/
  | slot (read : List (Option Bytes))
  /-- Between the quotes of a value. -/
  | value (read : List (Option Bytes)) (bytes : Bytes)
  /-- Behind a backslash between quotes. -/
  | escape (read : List (Option Bytes)) (bytes : Bytes)
  /-- Within the mark of a missing value, of which this is left. -/
  | mark (read : List (Option Bytes)) (left : Bytes)
  /-- Behind a slot. -/
  | behind (read : List (Option Bytes))
  /-- Behind the comma after a slot. -/
  | comma (read : List (Option Bytes))
  /-- Behind the closing bracket. -/
  | closed (read : List (Option Bytes))
  /-- At something that is no list of values. -/
  | failed

/-- The byte that an escaped byte stands for. -/
def unescape (b : UInt8) : UInt8 := if b = 0x6E then 0x0A else if b = 0x72 then 0x0D else b

namespace Reader

/-- Takes in a byte of the mark of a missing value. -/
def inMark (read : List (Option Bytes)) (b : UInt8) : Bytes → Reader
  | [] => failed
  | [c] => if b = c then behind (none :: read) else failed
  | c :: left => if b = c then mark read left else failed

/-- Takes in a byte. -/
def step (r : Reader) (b : UInt8) : Reader :=
  match r with
  | slot read =>
    if b = 0x22 then value read []
    else if b = 0x5D ∧ read = [] then closed []
    else inMark read b (Utf8.encode absent)
  | value read bytes =>
    if b = 0x22 then behind (some bytes.reverse :: read)
    else if b = 0x5C then escape read bytes
    else value read (b :: bytes)
  | escape read bytes => value read (unescape b :: bytes)
  | mark read left => inMark read b left
  | behind read => if b = 0x2C then comma read else if b = 0x5D then closed read else failed
  | comma read => if b = 0x20 then slot read else failed
  | closed _ => failed
  | failed => failed

/-- The slots of a list that was read to its closing bracket. -/
def finish : Reader → Option (List (Option Bytes))
  | closed read => some read.reverse
  | _ => none

end Reader

/-- Reads a line that reports no error. -/
def read (line : Bytes) : Option Response :=
  if line = success.content then some success
  else if line = authenticated.content then some authenticated
  else if line = invalidCredentials.content then some invalidCredentials
  else if line.head? = some 0x5B then
    (line.tail.foldl Reader.step (.slot [])).finish.map values
  else none

/-- Reads any number of lines that report no errors. -/
def readAll (bytes : Bytes) : Option (List Response) :=
  let frames := Frames.ofBytes bytes
  if frames.rest = [] then frames.lines.mapM read else none

/-! ## Along a list of values -/

namespace Reader

lemma foldl_step_escapeByte (read : List (Option Bytes)) (bytes : Bytes) (b : UInt8) :
    (escapeByte true b).foldl step (.value read bytes) = .value read (b :: bytes) := by
  unfold escapeByte
  split_ifs with hfeed hreturn hquoted
  · subst hfeed
    rfl
  · subst hreturn
    rfl
  · rcases hquoted.2 with rfl | rfl <;> rfl
  · have hplain : b ≠ 0x22 ∧ b ≠ 0x5C := by simpa using hquoted
    simp [step, hplain]

lemma foldl_step_escape (read : List (Option Bytes)) (bytes value : Bytes) :
    (Response.escape true value).foldl step (.value read bytes) =
      .value read (value.reverse ++ bytes) := by
  induction value generalizing bytes with
  | nil => rfl
  | cons b value ih =>
    rw [Response.escape, List.flatMap_cons, List.foldl_append, foldl_step_escapeByte]
    exact (ih (b :: bytes)).trans (by simp)

/-- A slot takes the reader behind it. -/
lemma foldl_step_slot (read : List (Option Bytes)) (value : Option Bytes) :
    (Response.slot value).foldl step (.slot read) = .behind (value :: read) := by
  cases value with
  | none => rfl
  | some value =>
    rw [Response.slot, List.cons_append, List.foldl_cons, List.foldl_append]
    have hopen : step (.slot read) 0x22 = .value read [] := rfl
    rw [hopen, foldl_step_escape]
    simp [step]

/-- Slots with separators between them take the reader behind the last of them. -/
lemma foldl_step_intercalate (read : List (Option Bytes)) (value : Option Bytes)
    (values : List (Option Bytes)) :
    ((Utf8.encode ", ").intercalate ((value :: values).map Response.slot)).foldl step (.slot read) =
      .behind (values.reverse ++ value :: read) := by
  induction values generalizing read value with
  | nil => simpa using foldl_step_slot read value
  | cons next values ih =>
    have hseparator (read : List (Option Bytes)) :
        (Utf8.encode ", ").foldl step (.behind read) = .slot read := rfl
    rw [List.map_cons, List.map_cons, List.intercalate_cons_cons, List.foldl_append,
      List.foldl_append, foldl_step_slot, hseparator, ← List.map_cons, ih]
    simp

lemma foldl_step_list (slots : List (Option Bytes)) :
    ((Utf8.encode ", ").intercalate (slots.map Response.slot) ++ [0x5D]).foldl step (.slot []) =
      .closed slots.reverse := by
  cases slots with
  | nil => rfl
  | cons value values =>
    rw [List.foldl_append, foldl_step_intercalate]
    simp [step]

end Reader

/-! ## Lines -/

/-- What a line begins with tells a list of values from everything else. -/
lemma head?_content_values (slots : List (Option Bytes)) :
    (values slots).content.head? = some 0x5B := rfl

lemma read_content {r : Response} (h : r.isError = false) : read r.content = some r := by
  cases r with
  | success => rfl
  | authenticated => decide +kernel
  | invalidCredentials => decide +kernel
  | error message => cases h
  | values slots =>
    have hfixed (r : Response) (hr : r.content.head? ≠ some 0x5B) :
        (values slots).content ≠ r.content := by
      intro heq
      rw [← heq] at hr
      exact hr (head?_content_values slots)
    have hlist : (values slots).content.tail =
        (Utf8.encode ", ").intercalate (slots.map slot) ++ [0x5D] := rfl
    rw [read, if_neg (hfixed success (by decide +kernel)),
      if_neg (hfixed authenticated (by decide +kernel)),
      if_neg (hfixed invalidCredentials (by decide +kernel)), if_pos (head?_content_values slots),
      hlist, Reader.foldl_step_list, Reader.finish, List.reverse_reverse, Option.map_some]

lemma ofBytes_line_append (r : Response) (bytes : Bytes) :
    Frames.ofBytes (r.line ++ bytes) =
      ⟨r.content :: (Frames.ofBytes bytes).lines, (Frames.ofBytes bytes).rest⟩ := by
  rw [Frames.ofBytes_append, line, lineFeed,
    Frames.ofBytes_concat_lineFeed (lineFeed_notMem_content r)]
  rfl

lemma ofBytes_lines (rs : List Response) :
    Frames.ofBytes (rs.flatMap line) = ⟨rs.map content, []⟩ := by
  induction rs with
  | nil => rfl
  | cons r rs ih => rw [List.flatMap_cons, ofBytes_line_append, ih, List.map_cons]

/-- Lines that follow one another are read one by one. -/
lemma readAll_flatMap_line (rs : List Response) (h : ∀ r ∈ rs, r.isError = false) :
    readAll (rs.flatMap line) = some rs := by
  rw [readAll, ofBytes_lines]
  simp only [if_true]
  induction rs with
  | nil => rfl
  | cons r rs ih =>
    rw [List.forall_mem_cons] at h
    rw [List.map_cons, List.mapM_cons, read_content h.1, ih h.2]
    rfl

/-- An error shows in the first byte of its line. -/
lemma head?_line_eq_iff (r : Response) : r.line.head? = some 0x45 ↔ r.isError = true := by
  cases r with
  | success => decide +kernel
  | authenticated => decide +kernel
  | invalidCredentials => decide +kernel
  | error message => exact iff_of_true rfl rfl
  | values slots => exact iff_of_false (by simp [line, content]) (by simp [isError])

/-- **Lines can be read back and cannot be forged.**  The responses that report no error are read
back from their lines, any number of them, and no two of them have the same line.  Every line, also
that of an error, has one line feed, at its end, and no carriage return; and the line of an error is
never that of another response. -/
theorem lines_read_back :
    (∀ rs : List Response, (∀ r ∈ rs, r.isError = false) →
      readAll (rs.flatMap line) = some rs) ∧
    Set.InjOn line {r | r.isError = false} ∧
    (∀ r : Response, r.line.count lineFeed = 1 ∧ r.line.getLast? = some lineFeed ∧
      (0x0D : UInt8) ∉ r.line) ∧
    ∀ (message : String) (r : Response), r.isError = false → (error message).line ≠ r.line := by
  refine ⟨readAll_flatMap_line, ?_, ?_, ?_⟩
  · intro a ha b hb hline
    have hread (r : Response) (hr : r.isError = false) : readAll r.line = some [r] := by
      simpa using readAll_flatMap_line [r] (by simpa using hr)
    have hsame := hread a ha
    rw [hline, hread b hb] at hsame
    exact (List.cons.inj (Option.some.inj hsame)).1.symm
  · intro r
    exact ⟨count_lineFeed_line r, List.getLast?_concat, carriageReturn_notMem_line r⟩
  · intro message r hr hline
    have herror := (head?_line_eq_iff (error message)).2 rfl
    rw [hline, head?_line_eq_iff, hr] at herror
    cases herror

/-- A value that looks like the end of its list and a second line, and a missing value. -/
theorem lines_of_lookalike_value :
    let rs := [values [some (Utf8.encode "x\", (nil)]\nSuccess\\"), none], success]
    let bytes := Utf8.encode "[\"x\\\", (nil)]\\nSuccess\\\\\", (nil)]\nSuccess\n"
    (∀ r ∈ rs, r.isError = false) ∧ rs.flatMap line = bytes ∧ readAll bytes = some rs := by
  intro rs bytes
  have hgood : ∀ r ∈ rs, r.isError = false := by decide
  have hbytes : rs.flatMap line = bytes := by decide +kernel
  refine ⟨hgood, hbytes, ?_⟩
  rw [← hbytes]
  exact lines_read_back.1 rs hgood

end ExpiringStore.Response
