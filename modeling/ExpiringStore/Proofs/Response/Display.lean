import ExpiringStore.Proofs.Response.Line
import ExpiringStore.Proofs.Text.Decoded
import ExpiringStore.Response

/-!
# Responses as text

The escapes of a line look at one byte at a time, and a value is any bytes.  Where the values of a
response are UTF-8 the escapes leave it at that, with or without those inside quotes: the bytes that
are escaped are characters of their own, and what stands for them is ASCII (`valid_escape`).

So the line of such a response is UTF-8 as well, and showing it as a text for people replaces
nothing (`encode_display`).
-/

namespace ExpiringStore.Response

open Utf8 (Valid)

/-- The values of the response are UTF-8. -/
def Textual : Response → Prop
  | values slots => ∀ value, some value ∈ slots → Valid value
  | _ => True

/-- A line that a client can read as text: UTF-8 without a carriage return. -/
def TextLine (line : Bytes) : Prop := Valid line ∧ (0x0D : UInt8) ∉ line

/-! ## Escapes -/

lemma escapeByte_lt (inQuotes : Bool) {b : UInt8} (hb : b < 0x80) :
    ∀ x ∈ escapeByte inQuotes b, x < 0x80 := by
  unfold escapeByte
  split_ifs
  · simp
  · simp
  · simpa using hb
  · simpa using hb

lemma escapeByte_of_le (inQuotes : Bool) {b : UInt8} (hb : 0x80 ≤ b.toNat) :
    escapeByte inQuotes b = [b] := by
  have hne : b.toNat ≠ 0x0A ∧ b.toNat ≠ 0x0D ∧ b.toNat ≠ 0x22 ∧ b.toNat ≠ 0x5C := by omega
  simp only [escapeByte, ← UInt8.toNat_inj]
  simp [hne]

/-- A character is escaped as a whole, or not at all. -/
lemma valid_flatMap_escapeByte (inQuotes : Bool) (c : Char) :
    Valid ((Utf8.encodeChar c).flatMap (escapeByte inQuotes)) := by
  by_cases hc : c.toNat < 0x80
  · have hb : UInt8.ofNat c.toNat < 0x80 := by
      rw [UInt8.lt_iff_toNat_lt, UInt8.toNat_ofNat']
      exact lt_of_le_of_lt (Nat.mod_le _ _) hc
    rw [Utf8.encodeChar_of_lt hc, List.flatMap_singleton]
    exact Utf8.valid_of_forall_lt (escapeByte_lt inQuotes hb)
  · have hplain : ∀ b ∈ Utf8.encodeChar c, escapeByte inQuotes b = [b] := fun b hb =>
      escapeByte_of_le inQuotes (Utf8.le_of_mem_encodeChar (Nat.le_of_not_lt hc) hb)
    have hchar : Utf8.encodeChar c = Utf8.encode (String.singleton c) := by simp [Utf8.encode]
    rw [List.flatMap_congr hplain, List.flatMap_singleton', hchar]
    exact Utf8.valid_encode _

lemma valid_escape (inQuotes : Bool) {bytes : Bytes} (h : Valid bytes) :
    Valid (escape inQuotes bytes) := by
  obtain ⟨text, rfl⟩ := Utf8.valid_iff.1 h
  rw [escape, Utf8.encode, List.flatMap_assoc]
  exact Utf8.valid_flatMap fun c _ => valid_flatMap_escapeByte inQuotes c

/-! ## Lines -/

lemma valid_slot {value : Option Bytes} (h : ∀ bytes ∈ value, Valid bytes) :
    Valid (slot value) := by
  cases value with
  | none => exact Utf8.valid_encode absent
  | some bytes =>
    have hquote : Valid [0x22] := Utf8.valid_encode "\""
    exact (hquote.append (valid_escape true (h bytes rfl))).append hquote

lemma Textual.valid_content {r : Response} (h : r.Textual) : Valid r.content := by
  cases r with
  | success => exact Utf8.valid_encode _
  | authenticated => exact Utf8.valid_encode _
  | invalidCredentials => exact Utf8.valid_encode _
  | error message =>
    exact (Utf8.valid_encode "ERROR: ").append (valid_escape false (Utf8.valid_encode message))
  | values slots =>
    have hslots : ∀ part ∈ slots.map slot, Valid part := by
      intro part hpart
      obtain ⟨value, hvalue, rfl⟩ := List.mem_map.1 hpart
      exact valid_slot fun bytes hbytes => h bytes (Option.mem_def.1 hbytes ▸ hvalue)
    exact ((Utf8.valid_encode "[").append ((Utf8.valid_encode ", ").intercalate hslots)).append
      (Utf8.valid_encode "]")

/-- **The line of a response** whose values are UTF-8 is UTF-8, without a carriage return. -/
lemma Textual.textLine {r : Response} (h : r.Textual) : TextLine r.line :=
  ⟨h.valid_content.append (Utf8.valid_encode "\n"), carriageReturn_notMem_line r⟩

/-- **Nothing is replaced** where the values of a response are UTF-8: its text and a line feed are
encoded as its line. -/
lemma Textual.encode_display {r : Response} (h : r.Textual) :
    Utf8.encode (r.display ++ "\n") = r.line := by
  obtain ⟨text, htext⟩ := Utf8.valid_iff.1 h.valid_content
  rw [line, display, ← htext, Utf8.decodeLossy_encode, Utf8.encode_append]
  rfl

end ExpiringStore.Response
