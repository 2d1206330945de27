import ExpiringStore.Text.Utf8
import Mathlib.Tactic.IntervalCases
import Mathlib.Tactic.Lemma

/-!
# Reading back what was encoded

The decoder undoes the encoder (`decode?_encode`), so two texts with the same bytes are the same
text (`encode_injective`).  The argument runs over one character at a time: from between two
characters, the bytes of a character bring the decoder back there with that character read
(`foldl_step_encodeChar`).

The lead byte of a longer character is its top bits `m` on a fixed base, and the range it opens is
given by `m`; what remains are continuation bytes that lie in that range because the character is
neither too small for its length, nor a surrogate, nor past the last code point.

A byte below `0x80` is a character wherever it stands, and ends what stands in front of it
(`decode?_concat`).
-/

namespace ExpiringStore.Utf8

/-! ## Lead bytes -/

private lemma lead_two {m : Nat} (hlow : 2 ≤ m) (hhigh : m < 32) :
    lead (UInt8.ofNat (0xC0 + m)) = .opens ⟨0x80, 0xBF, 0, m⟩ := by
  interval_cases m <;> rfl

private lemma lead_three {m : Nat} (h : m < 16) :
    lead (UInt8.ofNat (0xE0 + m)) =
      .opens ⟨if m = 0 then 0xA0 else 0x80, if m = 13 then 0x9F else 0xBF, 1, m⟩ := by
  interval_cases m <;> rfl

private lemma lead_four {m : Nat} (h : m < 5) :
    lead (UInt8.ofNat (0xF0 + m)) =
      .opens ⟨if m = 0 then 0x90 else 0x80, if m = 4 then 0x8F else 0xBF, 2, m⟩ := by
  interval_cases m <;> rfl

/-! ## Continuation bytes -/

private lemma toNat_continuation (n : Nat) : (continuation n).toNat = 0x80 + n % 0x40 := by
  simp only [continuation, UInt8.toNat_ofNat']
  omega

variable {out : List (Option Char)} {low high : UInt8} {value n : Nat}

private lemma step_last (hlow : low.toNat ≤ 0x80 + n % 0x40)
    (hhigh : 0x80 + n % 0x40 ≤ high.toNat) :
    Decoder.step ⟨out, some ⟨low, high, 0, value⟩⟩ (continuation n) =
      ⟨some (Char.ofNat (value * 0x40 + n % 0x40)) :: out, none⟩ := by
  have hrange : low ≤ continuation n ∧ continuation n ≤ high := by
    simp only [UInt8.le_iff_toNat_le, toNat_continuation]
    exact ⟨hlow, hhigh⟩
  simp [Decoder.step, hrange, toNat_continuation]

private lemma step_more (more : Nat) (hlow : low.toNat ≤ 0x80 + n % 0x40)
    (hhigh : 0x80 + n % 0x40 ≤ high.toNat) :
    Decoder.step ⟨out, some ⟨low, high, more + 1, value⟩⟩ (continuation n) =
      ⟨out, some ⟨0x80, 0xBF, more, value * 0x40 + n % 0x40⟩⟩ := by
  have hrange : low ≤ continuation n ∧ continuation n ≤ high := by
    simp only [UInt8.le_iff_toNat_le, toNat_continuation]
    exact ⟨hlow, hhigh⟩
  simp [Decoder.step, hrange, toNat_continuation]

private lemma step_opens {b : UInt8} {pending : Pending} (h : lead b = .opens pending) :
    Decoder.step ⟨out, none⟩ b = ⟨out, some pending⟩ := by
  simp [Decoder.step, Decoder.begin, h]

private lemma tail_low (n : Nat) : (0x80 : UInt8).toNat ≤ 0x80 + n % 0x40 := by
  simp

private lemma tail_high (n : Nat) : 0x80 + n % 0x40 ≤ (0xBF : UInt8).toNat := by
  have : (0xBF : UInt8).toNat = 0xBF := rfl
  omega

/-! ## One character -/

private lemma lead_ascii {n : Nat} (h : n < 0x80) : lead (UInt8.ofNat n) = .ascii := by
  have : UInt8.ofNat n < 0x80 := by
    rw [UInt8.lt_iff_toNat_lt, UInt8.toNat_ofNat']
    exact lt_of_le_of_lt (Nat.mod_le _ _) h
  simp [lead, this]

/-- The bytes of a character bring the decoder to the next one. -/
lemma foldl_step_encodeChar (out : List (Option Char)) (c : Char) :
    (encodeChar c).foldl Decoder.step ⟨out, none⟩ = ⟨some c :: out, none⟩ := by
  have hvalid : c.toNat < 0xD800 ∨ 0xDFFF < c.toNat ∧ c.toNat < 0x110000 := c.valid
  have hchar : Char.ofNat c.toNat = c := Char.ofNat_toNat c
  unfold encodeChar
  generalize hn : c.toNat = n at hvalid hchar ⊢
  simp only
  split
  · rename_i h1
    have hb : (UInt8.ofNat n).toNat = n := by rw [UInt8.toNat_ofNat']; omega
    simp [Decoder.step, Decoder.begin, lead_ascii h1, hb, hchar]
  split
  · rename_i h1 h2
    rw [List.foldl_cons, step_opens (lead_two (m := n / 0x40) (by omega) (by omega)),
      List.foldl_cons, step_last (tail_low n) (tail_high n), List.foldl_nil,
      show n / 0x40 * 0x40 + n % 0x40 = n by omega, hchar]
  split
  · rename_i h1 h2 h3
    -- the range of the second byte shuts out what is too small and the surrogates
    have hlow : (if n / 0x1000 = 0 then 0xA0 else 0x80 : UInt8).toNat ≤ 0x80 + n / 0x40 % 0x40 := by
      split
      · simp
        omega
      · simp
    have hhigh : 0x80 + n / 0x40 % 0x40 ≤
        (if n / 0x1000 = 13 then 0x9F else 0xBF : UInt8).toNat := by
      split
      · simp
        omega
      · simp
        omega
    rw [List.foldl_cons, step_opens (lead_three (m := n / 0x1000) (by omega)),
      List.foldl_cons, step_more 0 hlow hhigh,
      List.foldl_cons, step_last (tail_low n) (tail_high n), List.foldl_nil,
      show (n / 0x1000 * 0x40 + n / 0x40 % 0x40) * 0x40 + n % 0x40 = n by omega, hchar]
  · rename_i h1 h2 h3
    -- here it shuts out what is too small and what lies past the last code point
    have hlow : (if n / 0x40000 = 0 then 0x90 else 0x80 : UInt8).toNat ≤
        0x80 + n / 0x1000 % 0x40 := by
      split
      · simp
        omega
      · simp
    have hhigh : 0x80 + n / 0x1000 % 0x40 ≤
        (if n / 0x40000 = 4 then 0x8F else 0xBF : UInt8).toNat := by
      split
      · simp
        omega
      · simp
        omega
    rw [List.foldl_cons, step_opens (lead_four (m := n / 0x40000) (by omega)),
      List.foldl_cons, step_more 1 hlow hhigh,
      List.foldl_cons, step_more 0 (tail_low _) (tail_high _),
      List.foldl_cons, step_last (tail_low n) (tail_high n), List.foldl_nil,
      show ((n / 0x40000 * 0x40 + n / 0x1000 % 0x40) * 0x40 + n / 0x40 % 0x40) * 0x40 +
        n % 0x40 = n by omega, hchar]

/-! ## Whole texts -/

lemma foldl_step_flatMap_encodeChar (out : List (Option Char)) (cs : List Char) :
    (cs.flatMap encodeChar).foldl Decoder.step ⟨out, none⟩ =
      ⟨(cs.map some).reverse ++ out, none⟩ := by
  induction cs generalizing out with
  | nil => simp
  | cons c cs ih =>
    rw [List.flatMap_cons, List.foldl_append, foldl_step_encodeChar, ih]
    simp

lemma pieces_encode (text : String) : pieces (encode text) = text.toList.map some := by
  unfold pieces encode
  rw [foldl_step_flatMap_encodeChar]
  simp [Decoder.finish]

theorem decode?_encode (text : String) : decode? (encode text) = some text := by
  have hall : (text.toList.map some).mapM id = some text.toList := by
    induction text.toList with
    | nil => rfl
    | cons c cs ih => simp [List.mapM_cons, ih]
  rw [decode?, pieces_encode, hall]
  simp

theorem encode_injective : Function.Injective encode := by
  intro a b h
  have := decode?_encode a
  rw [h, decode?_encode b] at this
  exact (Option.some.inj this).symm

lemma encode_append (a b : String) : encode (a ++ b) = encode a ++ encode b := by
  simp [encode]

/-! ## Bytes below 0x80 -/

lemma encodeChar_of_lt {c : Char} (h : c.toNat < 0x80) : encodeChar c = [UInt8.ofNat c.toNat] := by
  simp [encodeChar, h]

/-- Only ASCII characters have bytes below `0x80`. -/
lemma le_of_mem_encodeChar {c : Char} (h : 0x80 ≤ c.toNat) {b : UInt8} (hb : b ∈ encodeChar c) :
    0x80 ≤ b.toNat := by
  have hvalid : c.toNat < 0xD800 ∨ 0xDFFF < c.toNat ∧ c.toNat < 0x110000 := c.valid
  revert hb
  unfold encodeChar
  generalize c.toNat = n at hvalid h ⊢
  simp only
  split_ifs <;> simp only [List.mem_cons, List.not_mem_nil, or_false, continuation] <;>
    rintro (rfl | rfl | rfl | rfl) <;> simp only [UInt8.toNat_ofNat'] <;> omega

/-! ## A byte below 0x80 behind others

Such a byte carries on no character, so whatever stands in front of it has been read to its end.
-/

lemma low_of_lead {b : UInt8} {pending : Pending} (h : lead b = .opens pending) :
    0x80 ≤ pending.low := by
  unfold lead at h
  split_ifs at h <;> cases h <;> simp only <;> decide

/-- No byte below `0x80` carries on the character under way. -/
def Decoder.Apart (d : Decoder) : Prop := ∀ pending ∈ d.pending, 0x80 ≤ pending.low

lemma Decoder.apart_begin (out : List (Option Char)) (b : UInt8) : (begin out b).Apart := by
  unfold begin
  cases hlead : lead b with
  | ascii => exact nofun
  | opens pending =>
    rintro _ ⟨⟩
    exact low_of_lead hlead
  | illFormed => exact nofun

lemma Decoder.apart_step (d : Decoder) (b : UInt8) : (d.step b).Apart := by
  unfold step
  split
  · exact apart_begin _ b
  split_ifs
  · split
    · exact nofun
    · rintro _ ⟨⟩
      exact UInt8.le_refl 0x80
  · exact apart_begin _ b

lemma Decoder.Apart.finish_step {d : Decoder} (h : d.Apart) {b : UInt8} (hb : b < 0x80) :
    (d.step b).finish = d.finish ++ [some (Char.ofNat b.toNat)] := by
  have hlead : lead b = .ascii := if_pos hb
  rcases d with ⟨out, _ | pending⟩
  · simp [step, begin, finish, hlead]
  · have hout : ¬ (pending.low ≤ b ∧ b ≤ pending.high) := fun hrange =>
      UInt8.not_lt.2 (UInt8.le_trans (h pending rfl) hrange.1) hb
    simp [step, begin, finish, hlead, hout]

lemma pieces_concat {b : UInt8} (hb : b < 0x80) (bytes : Bytes) :
    pieces (bytes ++ [b]) = pieces bytes ++ [some (Char.ofNat b.toNat)] := by
  have hapart : (bytes.foldl Decoder.step ⟨[], none⟩).Apart := by
    obtain rfl | ⟨front, last, rfl⟩ := List.eq_nil_or_concat bytes
    · exact nofun
    · rw [List.concat_eq_append, List.foldl_append]
      exact Decoder.apart_step _ last
  rw [pieces, List.foldl_append]
  exact hapart.finish_step hb

/-- A byte below `0x80` adds its character, and does not change whether the bytes in front of it are
well-formed. -/
lemma decode?_concat {b : UInt8} (hb : b < 0x80) (bytes : Bytes) :
    decode? (bytes ++ [b]) =
      (decode? bytes).map (· ++ String.singleton (Char.ofNat b.toNat)) := by
  rw [decode?, decode?, pieces_concat hb, List.mapM_append]
  cases (pieces bytes).mapM id with
  | none => rfl
  | some cs => simp [String.ofList_append]

/-! ## Digits -/

/-- The bytes of a run of characters are all ASCII digits exactly when the characters are. -/
lemma forall_mem_encode_digit_iff (text : String) :
    (∀ b ∈ encode text, 0x30 ≤ b ∧ b ≤ 0x39) ↔ ∀ c ∈ text.toList, c.isDigit = true := by
  have hchar (c : Char) : (∀ b ∈ encodeChar c, 0x30 ≤ b ∧ b ≤ 0x39) ↔ c.isDigit = true := by
    have hdigit : c.isDigit = true ↔ 0x30 ≤ c.toNat ∧ c.toNat ≤ 0x39 := by
      simp [Char.isDigit, UInt32.le_iff_toNat_le]
    have hvalid : c.toNat < 0xD800 ∨ 0xDFFF < c.toNat ∧ c.toNat < 0x110000 := c.valid
    rw [hdigit]
    unfold encodeChar
    generalize c.toNat = n at hvalid ⊢
    simp only
    split_ifs <;>
      simp only [List.forall_mem_cons, UInt8.le_iff_toNat_le, UInt8.toNat_ofNat'] <;>
      simp <;> omega
  simp only [encode, List.mem_flatMap, forall_exists_index, and_imp]
  constructor
  · intro h c hc
    exact (hchar c).1 fun b hb => h b c hc hb
  · intro h b c hc hb
    exact (hchar c).2 (h c hc) b hb

end ExpiringStore.Utf8
