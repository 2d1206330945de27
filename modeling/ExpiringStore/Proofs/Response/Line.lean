import ExpiringStore.Response
import Mathlib.Data.List.Basic
import Mathlib.Tactic.Lemma

/-!
# One response, one line

Whatever a response carries, a stored value or the text of an error, its bytes run to exactly one
line feed, which is the last of them, and none of them is a carriage return.  So the lines of
several responses can be told apart by their line feeds alone, and there are as many line feeds as
responses.
-/

namespace ExpiringStore.Response

/-- No byte ends a line or returns to its start. -/
def OnOneLine (bytes : Bytes) : Prop := ∀ b ∈ bytes, b ≠ 0x0A ∧ b ≠ 0x0D

lemma onOneLine_iff {bytes : Bytes} :
    OnOneLine bytes ↔ (0x0A : UInt8) ∉ bytes ∧ (0x0D : UInt8) ∉ bytes := by
  constructor
  · exact fun h => ⟨fun hb => (h _ hb).1 rfl, fun hb => (h _ hb).2 rfl⟩
  · rintro ⟨hfeed, hreturn⟩ b hb
    exact ⟨fun h => hfeed (h ▸ hb), fun h => hreturn (h ▸ hb)⟩

lemma OnOneLine.append {a b : Bytes} (ha : OnOneLine a) (hb : OnOneLine b) :
    OnOneLine (a ++ b) := by
  intro x hx
  rcases List.mem_append.1 hx with h | h
  · exact ha x h
  · exact hb x h

lemma OnOneLine.intercalate {separator : Bytes} (h : OnOneLine separator) {pieces : List Bytes}
    (hpieces : ∀ piece ∈ pieces, OnOneLine piece) : OnOneLine (separator.intercalate pieces) := by
  induction pieces with
  | nil => exact fun b hb => absurd hb List.not_mem_nil
  | cons piece pieces ih =>
    rw [List.forall_mem_cons] at hpieces
    cases pieces with
    | nil => simpa using hpieces.1
    | cons next pieces =>
      rw [List.intercalate_cons_cons]
      exact (hpieces.1.append h).append (ih hpieces.2)

lemma onOneLine_escape (inQuotes : Bool) (bytes : Bytes) : OnOneLine (escape inQuotes bytes) := by
  intro x hx
  obtain ⟨b, -, hb⟩ := List.mem_flatMap.1 hx
  unfold escapeByte at hb
  split_ifs at hb with hfeed hreturn hquoted
  · have : x = 0x5C ∨ x = 0x6E := by simpa using hb
    rcases this with rfl | rfl <;> decide
  · have : x = 0x5C ∨ x = 0x72 := by simpa using hb
    rcases this with rfl | rfl <;> decide
  · have : x = 0x5C ∨ x = b := by simpa using hb
    rcases this with rfl | rfl
    · decide
    · exact ⟨hfeed, hreturn⟩
  · rw [List.mem_singleton.1 hb]
    exact ⟨hfeed, hreturn⟩

lemma onOneLine_slot (value : Option Bytes) : OnOneLine (slot value) := by
  cases value with
  | none => exact onOneLine_iff.2 (by decide +kernel)
  | some value =>
    have hquote : OnOneLine [0x22] := onOneLine_iff.2 (by decide)
    exact (hquote.append (onOneLine_escape true value)).append hquote

lemma onOneLine_content (r : Response) : OnOneLine r.content := by
  cases r with
  | success => exact onOneLine_iff.2 (by decide +kernel)
  | authenticated => exact onOneLine_iff.2 (by decide +kernel)
  | invalidCredentials => exact onOneLine_iff.2 (by decide +kernel)
  | error message =>
    have hlead : OnOneLine (Utf8.encode "ERROR: ") := onOneLine_iff.2 (by decide +kernel)
    exact hlead.append (onOneLine_escape false _)
  | values slots =>
    have hopen : OnOneLine [0x5B] := onOneLine_iff.2 (by decide)
    have hclose : OnOneLine [0x5D] := onOneLine_iff.2 (by decide)
    have hcomma : OnOneLine (Utf8.encode ", ") := onOneLine_iff.2 (by decide +kernel)
    have hslots : ∀ piece ∈ slots.map slot, OnOneLine piece := by
      intro piece hpiece
      obtain ⟨value, -, rfl⟩ := List.mem_map.1 hpiece
      exact onOneLine_slot value
    exact (hopen.append (hcomma.intercalate hslots)).append hclose

lemma lineFeed_notMem_content (r : Response) : lineFeed ∉ r.content :=
  (onOneLine_iff.1 (onOneLine_content r)).1

/-- **The only line feed of a line is its last byte.** -/
theorem count_lineFeed_line (r : Response) : r.line.count lineFeed = 1 := by
  rw [line, List.count_append, List.count_eq_zero.2 (lineFeed_notMem_content r)]
  rfl

lemma count_lineFeed_lines (rs : List Response) :
    (rs.flatMap line).count lineFeed = rs.length := by
  induction rs with
  | nil => rfl
  | cons r rs ih =>
    rw [List.flatMap_cons, List.count_append, count_lineFeed_line, ih, List.length_cons,
      Nat.add_comm]

lemma flatMap_line_eq_nil {rs : List Response} : rs.flatMap line = [] ↔ rs = [] := by
  constructor
  · intro h
    rw [← List.length_eq_zero_iff, ← count_lineFeed_lines, h, List.count_nil]
  · rintro rfl
    rfl

lemma carriageReturn_notMem_line (r : Response) : (0x0D : UInt8) ∉ r.line := by
  intro h
  rcases List.mem_append.1 h with hcontent | hend
  · exact (onOneLine_iff.1 (onOneLine_content r)).2 hcontent
  · exact absurd (List.mem_singleton.1 hend) (by decide)

end ExpiringStore.Response
