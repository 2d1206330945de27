import ExpiringStore.Connection.Framing
import Mathlib.Data.List.DropRight
import Mathlib.Tactic.Lemma

/-!
# Lines across reads

Bytes are cut into lines as they come in: what is left behind the last line feed is put in front of
the next bytes.  `Frames.ofBytes_append` says that this is the same as cutting all bytes at once,
wherever the border between two reads falls, and `Frames.splitOn_eq` that the lines with what is
left are the pieces between line feeds.
-/

namespace ExpiringStore.Frames

lemma ofBytes_cons (b : UInt8) (bytes : Bytes) : ofBytes (b :: bytes) = (ofBytes bytes).prepend b :=
  rfl

lemma prepend_lineFeed (f : Frames) : f.prepend 0x0A = ⟨[] :: f.lines, f.rest⟩ := rfl

lemma prepend_of_ne {b : UInt8} (h : b ≠ 0x0A) (rest : Bytes) :
    prepend b ⟨[], rest⟩ = ⟨[], b :: rest⟩ ∧
      ∀ line lines, prepend b ⟨line :: lines, rest⟩ = ⟨(b :: line) :: lines, rest⟩ := by
  simp [prepend, h]

/-- Bytes can be cut into lines as they come in. -/
lemma ofBytes_append (a b : Bytes) :
    ofBytes (a ++ b) =
      ⟨(ofBytes a).lines ++ (ofBytes ((ofBytes a).rest ++ b)).lines,
        (ofBytes ((ofBytes a).rest ++ b)).rest⟩ := by
  induction a with
  | nil => rfl
  | cons x a ih =>
    rw [List.cons_append, ofBytes_cons, ih, ofBytes_cons x a]
    rcases hf : ofBytes a with ⟨_ | ⟨line, lines⟩, rest⟩
    · by_cases hx : x = 0x0A
      · simp [hx, prepend_lineFeed]
      · -- no line has ended yet, so `x` is the first byte of what is left
        rw [(prepend_of_ne hx rest).1]
        rfl
    · by_cases hx : x = 0x0A
      · simp [hx, prepend_lineFeed]
      · simp only [(prepend_of_ne hx rest).2, List.cons_append, (prepend_of_ne hx _).2]

lemma requests_append (a b : Bytes) :
    (ofBytes (a ++ b)).requests =
      (ofBytes a).requests ++ (ofBytes ((ofBytes a).rest ++ b)).requests := by
  rw [ofBytes_append, requests, List.map_append]
  rfl

lemma rest_append (a b : Bytes) :
    (ofBytes (a ++ b)).rest = (ofBytes ((ofBytes a).rest ++ b)).rest := by
  rw [ofBytes_append]

/-- The lines and what is left are the pieces between line feeds. -/
lemma splitOn_eq (bytes : Bytes) :
    bytes.splitOn 0x0A = (ofBytes bytes).lines ++ [(ofBytes bytes).rest] := by
  induction bytes with
  | nil => rfl
  | cons b bytes ih =>
    rw [List.splitOn_cons_eq_if_modifyHead, ih, ofBytes_cons]
    rcases ofBytes bytes with ⟨_ | ⟨line, lines⟩, rest⟩
    · by_cases hb : b = 0x0A
      · simp [hb, prepend_lineFeed]
      · simp [hb, (prepend_of_ne hb rest).1]
    · by_cases hb : b = 0x0A
      · simp [hb, prepend_lineFeed]
      · simp [hb, (prepend_of_ne hb rest).2]

lemma ofBytes_of_not_mem {bytes : Bytes} (h : (0x0A : UInt8) ∉ bytes) :
    ofBytes bytes = ⟨[], bytes⟩ := by
  induction bytes with
  | nil => rfl
  | cons b bytes ih =>
    rw [List.mem_cons, not_or] at h
    rw [ofBytes_cons, ih h.2, (prepend_of_ne (Ne.symm h.1) bytes).1]

lemma ofBytes_concat_lineFeed {bytes : Bytes} (h : (0x0A : UInt8) ∉ bytes) :
    ofBytes (bytes ++ [0x0A]) = ⟨[bytes], []⟩ := by
  induction bytes with
  | nil => rfl
  | cons b bytes ih =>
    rw [List.mem_cons, not_or] at h
    rw [List.cons_append, ofBytes_cons, ih h.2, (prepend_of_ne (Ne.symm h.1) []).2]

lemma lineFeed_notMem_rest (bytes : Bytes) : (0x0A : UInt8) ∉ (ofBytes bytes).rest := by
  induction bytes with
  | nil => exact List.not_mem_nil
  | cons b bytes ih =>
    rw [ofBytes_cons]
    rcases hf : ofBytes bytes with ⟨_ | ⟨line, lines⟩, rest⟩
    · rw [hf] at ih
      by_cases hb : b = 0x0A
      · simpa [hb, prepend_lineFeed] using ih
      · simpa [(prepend_of_ne hb rest).1, Ne.symm hb] using ih
    · rw [hf] at ih
      by_cases hb : b = 0x0A
      · simpa [hb, prepend_lineFeed] using ih
      · simpa [(prepend_of_ne hb rest).2] using ih

/-- What is left is what follows the last line feed. -/
lemma rest_eq_rtakeWhile (bytes : Bytes) :
    (ofBytes bytes).rest = bytes.rtakeWhile (· ≠ 0x0A) := by
  induction bytes using List.reverseRecOn with
  | nil => rfl
  | append_singleton bytes b ih =>
    have hrest := lineFeed_notMem_rest bytes
    rw [rest_append]
    by_cases hb : b = 0x0A
    · subst hb
      rw [ofBytes_concat_lineFeed hrest, List.rtakeWhile_concat_neg _ _ _ (by decide)]
    · have hlast : (0x0A : UInt8) ∉ (ofBytes bytes).rest ++ [b] := by
        simp [hrest, Ne.symm hb]
      rw [ofBytes_of_not_mem hlast, List.rtakeWhile_concat_pos _ _ _ (by simpa using hb), ih]

end ExpiringStore.Frames
