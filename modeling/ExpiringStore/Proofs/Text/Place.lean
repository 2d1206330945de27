import ExpiringStore.Text.Position
import Mathlib.Algebra.GroupWithZero.Nat
import Mathlib.Data.List.DropRight
import Mathlib.Tactic.Lemma

/-!
# Places counted from what stands before them

`Position.after` counts the bytes, the lines and the column of a place directly from the characters
before it, with no cursor that moves.  A cursor that has stepped over those characters agrees with
it (`advanceOver_after`), so a position that was reached step by step can be read off the text.

The byte count of a run of characters also orders the ways to cut one text in two: the shorter of
two first parts is a prefix of the longer one (`exists_append_of_byteCount_le`).
-/

namespace ExpiringStore

/-- The number of bytes of UTF-8 in a run of characters. -/
def byteCount (cs : List Char) : Nat := (cs.map Char.utf8Size).sum

@[simp] lemma byteCount_nil : byteCount [] = 0 := rfl

@[simp] lemma byteCount_cons (c : Char) (cs : List Char) :
    byteCount (c :: cs) = c.utf8Size + byteCount cs := by
  simp [byteCount]

@[simp] lemma byteCount_append (cs ds : List Char) :
    byteCount (cs ++ ds) = byteCount cs + byteCount ds := by
  simp [byteCount]

lemma byteCount_pos {cs : List Char} (h : cs ≠ []) : 0 < byteCount cs := by
  obtain ⟨c, rest, rfl⟩ := List.exists_cons_of_ne_nil h
  have := c.utf8Size_pos
  rw [byteCount_cons]
  omega

lemma eq_nil_of_byteCount_eq_zero {cs : List Char} (h : byteCount cs = 0) : cs = [] := by
  by_contra hne
  have := byteCount_pos hne
  omega

/-- The byte count of a text is the size of its encoding. -/
lemma byteCount_toList (text : String) : byteCount text.toList = text.utf8ByteSize := by
  rw [← String.size_toByteArray, ← String.utf8Encode_toList]
  induction text.toList with
  | nil => simp
  | cons c cs ih =>
    rw [byteCount_cons, ih, List.utf8Encode_cons, ByteArray.size_append]
    simp [List.utf8Encode]

/-- Of two ways to cut a text in two, the one with fewer bytes in front has the shorter front. -/
lemma exists_append_of_byteCount_le {a b c d : List Char} (h : a ++ b = c ++ d)
    (hle : byteCount a ≤ byteCount c) : ∃ e, c = a ++ e ∧ b = e ++ d := by
  rcases List.append_eq_append_iff.1 h with ⟨e, hc, hb⟩ | ⟨e, ha, hd⟩
  · exact ⟨e, hc, hb⟩
  · have he : e = [] := by
      apply eq_nil_of_byteCount_eq_zero
      rw [ha, byteCount_append] at hle
      omega
    subst he
    exact ⟨[], by simpa using ha.symm, by simpa using hd.symm⟩

namespace Position

/-- The place after the characters `before`: so many bytes from the start, a line more than there
are line feeds, and a column more than there are characters since the last of them. -/
def after (before : List Char) : Position where
  offset := byteCount before
  line := 1 + before.count '\n'
  column := 1 + (before.rtakeWhile (· ≠ '\n')).length

@[simp] lemma offset_after (before : List Char) : (after before).offset = byteCount before := rfl

lemma after_nil : after [] = start := rfl

/-- Stepping over a character counts that character in. -/
lemma advance_after (before : List Char) (c : Char) :
    (after before).advance c = after (before ++ [c]) := by
  unfold advance after
  by_cases hc : c = '\n'
  · simp [hc]
    omega
  · have hcount : [c].count '\n' = 0 := List.count_singleton.trans (by simp [hc])
    simp [hc, hcount]
    omega

/-- Stepping over a run of characters counts the run in. -/
lemma advanceOver_after (before cs : List Char) :
    (after before).advanceOver cs = after (before ++ cs) := by
  induction cs generalizing before with
  | nil => simp
  | cons c cs ih => rw [advanceOver_cons, advance_after, ih, List.append_assoc]; rfl

end Position

end ExpiringStore
