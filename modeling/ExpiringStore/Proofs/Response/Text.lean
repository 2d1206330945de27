import ExpiringStore.Proofs.Text.Utf8
import ExpiringStore.Response
import Mathlib.Data.List.Basic

/-!
# Lists of values as text

A response is made of bytes, and its escapes look at single bytes.  Where the values are texts the
line is a text too: `Response.listing` writes it with the characters of the values, each value in
quotes with four characters escaped, and `line_values` says that the line of the response is its
encoding.  A byte that is escaped is never part of a longer character.
-/

namespace ExpiringStore.Response

/-- A character as it stands between quotes. -/
def escapeChar (c : Char) : String :=
  match c with
  | '\n' => "\\n"
  | '\r' => "\\r"
  | '"' => "\\\""
  | '\\' => "\\\\"
  | c => String.singleton c

/-- A value between quotes, or the mark of a missing one. -/
def slotText : Option String → String
  | some value => "\"" ++ String.join (value.toList.map escapeChar) ++ "\""
  | none => "(nil)"

/-- The line that lists values. -/
def listing (slots : List (Option String)) : String :=
  "[" ++ ", ".intercalate (slots.map slotText) ++ "]\n"

lemma flatMap_escapeByte_encodeChar (c : Char) :
    (Utf8.encodeChar c).flatMap (escapeByte true) = Utf8.encode (escapeChar c) := by
  unfold escapeChar
  split
  · rfl
  · rfl
  · rfl
  · rfl
  · rename_i hn hr hq hb
    -- none of the bytes is escaped: an ASCII byte would be the character itself
    have hplain : ∀ b ∈ Utf8.encodeChar c, escapeByte true b = [b] := by
      intro b hmem
      have hne : b.toNat ≠ 0x0A ∧ b.toNat ≠ 0x0D ∧ b.toNat ≠ 0x22 ∧ b.toNat ≠ 0x5C := by
        by_cases hc : c.toNat < 0x80
        · rw [Utf8.encodeChar_of_lt hc, List.mem_singleton] at hmem
          have hval : b.toNat = c.toNat := by
            rw [hmem, UInt8.toNat_ofNat']
            omega
          rw [hval]
          refine ⟨?_, ?_, ?_, ?_⟩ <;> intro h
          · exact hn (Char.toNat_inj.1 h)
          · exact hr (Char.toNat_inj.1 h)
          · exact hq (Char.toNat_inj.1 h)
          · exact hb (Char.toNat_inj.1 h)
        · have := Utf8.le_of_mem_encodeChar (Nat.le_of_not_lt hc) hmem
          omega
      simp only [← UInt8.toNat_inj, escapeByte] at hne ⊢
      simp [hne]
    rw [List.flatMap_congr hplain, List.flatMap_singleton']
    simp [Utf8.encode]

lemma escape_encode (value : String) :
    escape true (Utf8.encode value) =
      Utf8.encode (String.join (value.toList.map escapeChar)) := by
  rw [escape, Utf8.encode, Utf8.encode, String.toList_join, List.flatMap_assoc, List.flatMap_map,
    List.flatMap_assoc]
  exact List.flatMap_congr fun c _ => flatMap_escapeByte_encodeChar c

lemma slot_encode (value : Option String) :
    slot (value.map Utf8.encode) = Utf8.encode (slotText value) := by
  cases value with
  | none => rfl
  | some value =>
    rw [Option.map_some, slot, slotText, escape_encode, Utf8.encode_append, Utf8.encode_append]
    rfl

lemma encode_intercalate (separator : String) (texts : List String) :
    Utf8.encode (separator.intercalate texts) =
      (Utf8.encode separator).intercalate (texts.map Utf8.encode) := by
  induction texts with
  | nil => rfl
  | cons text texts ih =>
    cases texts with
    | nil => simp
    | cons next texts =>
      rw [String.intercalate_cons_cons, Utf8.encode_append, Utf8.encode_append, ih]
      simp

/-- **The line of a list of texts.** -/
theorem line_values (slots : List (Option String)) :
    (values (slots.map fun slot => slot.map Utf8.encode)).line = Utf8.encode (listing slots) := by
  have hslots : (slots.map fun slot => slot.map Utf8.encode).map slot =
      (slots.map slotText).map Utf8.encode := by
    rw [List.map_map, List.map_map]
    exact List.map_congr_left fun value _ => slot_encode value
  rw [line, content, hslots, ← encode_intercalate, listing, Utf8.encode_append, Utf8.encode_append]
  simp only [List.append_assoc]
  rfl

end ExpiringStore.Response
