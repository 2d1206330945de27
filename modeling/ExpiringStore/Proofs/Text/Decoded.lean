import ExpiringStore.Proofs.Text.Utf8
import Mathlib.Data.List.Basic
import Mathlib.Data.List.Induction

/-!
# What can be decoded

The decoder accepts the encodings of texts and no other bytes (`decode?_eq_some_iff`).  Bytes that
are accepted have no ill-formed chunk, and an ill-formed chunk is never taken back.  So where a byte
opens a longer character, as many bytes follow as it calls for, each in its range (`exists_tail`),
and these are the bytes of a character (`exists_encodeChar_of_opens`).  What follows them is decoded
from between two characters again.

Bytes that are accepted are called `Valid` here.  They stay valid when they are put together.
-/

namespace ExpiringStore.Utf8

/-! ## Ill-formed chunks -/

lemma Decoder.mem_out_begin {out : List (Option Char)} (h : none ∈ out) (b : UInt8) :
    none ∈ (begin out b).out := by
  unfold begin
  cases lead b with
  | ascii => exact List.mem_cons_of_mem _ h
  | opens pending => exact h
  | illFormed => exact List.mem_cons_self

/-- What was ill-formed stays so. -/
lemma Decoder.mem_out_step {d : Decoder} (h : none ∈ d.out) (b : UInt8) :
    none ∈ (d.step b).out := by
  unfold step
  split
  · exact mem_out_begin h b
  split_ifs
  · split
    · exact List.mem_cons_of_mem _ h
    · exact h
  · exact mem_out_begin List.mem_cons_self b

lemma Decoder.mem_finish_foldl {d : Decoder} (h : none ∈ d.out) (bytes : Bytes) :
    none ∈ (bytes.foldl step d).finish := by
  induction bytes generalizing d with
  | nil =>
    rw [List.foldl_nil, finish]
    split
    · exact List.mem_reverse.2 h
    · exact List.mem_reverse.2 List.mem_cons_self
  | cons b bytes ih => exact ih (mem_out_step h b)

/-! ## Longer characters -/

variable {out : List (Option Char)} {pending : Pending} {b : UInt8} {bytes : Bytes}

lemma high_of_lead (h : lead b = .opens pending) : pending.high ≤ 0xBF := by
  unfold lead at h
  split_ifs at h <;> cases h <;> simp only <;> decide

/-- A character under way is carried on by the next byte. -/
lemma exists_cons_of_pending
    (h : none ∉ (bytes.foldl Decoder.step ⟨out, some pending⟩).finish) :
    ∃ c rest, bytes = c :: rest ∧ pending.low ≤ c ∧ c ≤ pending.high ∧
      ∀ more, pending.more = more + 1 →
        ∃ value, none ∉ (rest.foldl Decoder.step ⟨out, some ⟨0x80, 0xBF, more, value⟩⟩).finish := by
  cases bytes with
  | nil => exact absurd (List.mem_reverse.2 List.mem_cons_self) h
  | cons c rest =>
    rw [List.foldl_cons] at h
    by_cases hrange : pending.low ≤ c ∧ c ≤ pending.high
    · refine ⟨c, rest, rfl, hrange.1, hrange.2, fun more hmore => ?_⟩
      simp only [Decoder.step, hrange, and_self, if_true, hmore] at h
      exact ⟨_, h⟩
    · refine absurd (Decoder.mem_finish_foldl ?_ rest) h
      simp only [Decoder.step, hrange, if_false]
      exact Decoder.mem_out_begin List.mem_cons_self c

/-- A character under way is carried on by as many bytes as it calls for. -/
lemma exists_tail (hlow : 0x80 ≤ pending.low) (hhigh : pending.high ≤ 0xBF)
    (h : none ∉ (bytes.foldl Decoder.step ⟨out, some pending⟩).finish) :
    ∃ tail after, bytes = tail ++ after ∧ tail.length = pending.more + 1 ∧
      (∀ c ∈ tail.head?, pending.low ≤ c ∧ c ≤ pending.high) ∧
      ∀ c ∈ tail, 0x80 ≤ c ∧ c ≤ 0xBF := by
  induction hmore : pending.more generalizing pending bytes with
  | zero =>
    obtain ⟨c, rest, rfl, hc, hc', -⟩ := exists_cons_of_pending h
    have hrange : 0x80 ≤ c ∧ c ≤ 0xBF := ⟨UInt8.le_trans hlow hc, UInt8.le_trans hc' hhigh⟩
    exact ⟨[c], rest, rfl, rfl, by simpa using ⟨hc, hc'⟩, by simpa using hrange⟩
  | succ more ih =>
    obtain ⟨c, rest, rfl, hc, hc', hrest⟩ := exists_cons_of_pending h
    have hrange : 0x80 ≤ c ∧ c ≤ 0xBF := ⟨UInt8.le_trans hlow hc, UInt8.le_trans hc' hhigh⟩
    obtain ⟨value, hvalue⟩ := hrest more hmore
    obtain ⟨tail, after, rfl, hlength, -, htail⟩ :=
      ih (UInt8.le_refl 0x80) (UInt8.le_refl 0xBF) hvalue rfl
    refine ⟨c :: tail, after, rfl, by rw [List.length_cons, hlength], by simpa using ⟨hc, hc'⟩, ?_⟩
    exact List.forall_mem_cons.2 ⟨hrange, htail⟩

/-! ## Characters by their bytes -/

lemma exists_char {n : Nat} (h : n < 0xD800 ∨ 0xDFFF < n ∧ n < 0x110000) :
    ∃ c : Char, c.toNat = n :=
  ⟨Char.ofNat n, by rw [Char.ofNat, dif_pos h]; rfl⟩

lemma exists_encodeChar_of_ascii (h : lead b = .ascii) : ∃ c, encodeChar c = [b] := by
  have hb : b.toNat < 0x80 := by
    unfold lead at h
    split_ifs at h with hb
    exact UInt8.lt_iff_toNat_lt.1 hb
  obtain ⟨c, hc⟩ := exists_char (n := b.toNat) (by omega)
  refine ⟨c, ?_⟩
  rw [encodeChar_of_lt (by omega), hc, UInt8.ofNat_toNat]

variable {c d e : UInt8}

private lemma exists_encodeChar_two (hb : 0xC2 ≤ b.toNat ∧ b.toNat < 0xE0)
    (hc : 0x80 ≤ c.toNat ∧ c.toNat ≤ 0xBF) : ∃ char, encodeChar char = [b, c] := by
  obtain ⟨char, hchar⟩ := exists_char (n := (b.toNat - 0xC0) * 0x40 + (c.toNat - 0x80)) (by omega)
  refine ⟨char, ?_⟩
  simp only [encodeChar, hchar]
  rw [if_neg (by omega), if_pos (by omega)]
  simp only [List.cons.injEq, and_true, ← UInt8.toNat_inj, continuation, UInt8.toNat_ofNat']
  omega

private lemma exists_encodeChar_three (hb : 0xE0 ≤ b.toNat ∧ b.toNat < 0xF0)
    (hc : 0x80 ≤ c.toNat ∧ c.toNat ≤ 0xBF) (hd : 0x80 ≤ d.toNat ∧ d.toNat ≤ 0xBF)
    (hsmall : b.toNat = 0xE0 → 0xA0 ≤ c.toNat) (hsurrogate : b.toNat = 0xED → c.toNat ≤ 0x9F) :
    ∃ char, encodeChar char = [b, c, d] := by
  obtain ⟨char, hchar⟩ := exists_char
    (n := ((b.toNat - 0xE0) * 0x40 + (c.toNat - 0x80)) * 0x40 + (d.toNat - 0x80)) (by omega)
  refine ⟨char, ?_⟩
  simp only [encodeChar, hchar]
  rw [if_neg (by omega), if_neg (by omega), if_pos (by omega)]
  simp only [List.cons.injEq, and_true, ← UInt8.toNat_inj, continuation, UInt8.toNat_ofNat']
  omega

private lemma exists_encodeChar_four (hb : 0xF0 ≤ b.toNat ∧ b.toNat ≤ 0xF4)
    (hc : 0x80 ≤ c.toNat ∧ c.toNat ≤ 0xBF) (hd : 0x80 ≤ d.toNat ∧ d.toNat ≤ 0xBF)
    (he : 0x80 ≤ e.toNat ∧ e.toNat ≤ 0xBF) (hsmall : b.toNat = 0xF0 → 0x90 ≤ c.toNat)
    (hlarge : b.toNat = 0xF4 → c.toNat ≤ 0x8F) : ∃ char, encodeChar char = [b, c, d, e] := by
  obtain ⟨char, hchar⟩ := exists_char
    (n := (((b.toNat - 0xF0) * 0x40 + (c.toNat - 0x80)) * 0x40 + (d.toNat - 0x80)) * 0x40 +
      (e.toNat - 0x80)) (by omega)
  refine ⟨char, ?_⟩
  simp only [encodeChar, hchar]
  rw [if_neg (by omega), if_neg (by omega), if_neg (by omega)]
  simp only [List.cons.injEq, and_true, ← UInt8.toNat_inj, continuation, UInt8.toNat_ofNat']
  omega

/-- The range that a lead byte opens shuts out what is too small for its length, the surrogates and
what lies past the last code point. -/
lemma cases_of_lead (h : lead b = .opens pending) :
    pending.more = 0 ∧ 0xC2 ≤ b.toNat ∧ b.toNat < 0xE0 ∨
    pending.more = 1 ∧ 0xE0 ≤ b.toNat ∧ b.toNat < 0xF0 ∧
      (b.toNat = 0xE0 → pending.low = 0xA0) ∧ (b.toNat = 0xED → pending.high = 0x9F) ∨
    pending.more = 2 ∧ 0xF0 ≤ b.toNat ∧ b.toNat ≤ 0xF4 ∧
      (b.toNat = 0xF0 → pending.low = 0x90) ∧ (b.toNat = 0xF4 → pending.high = 0x8F) := by
  unfold lead at h
  simp only [UInt8.lt_iff_toNat_lt, ← UInt8.toNat_inj] at h
  split_ifs at h <;> cases h <;> simp at * <;> omega

/-- The bytes of a longer character: its lead byte and continuation bytes, the first of them in the
range that the lead byte opens. -/
lemma exists_encodeChar_of_opens (h : lead b = .opens pending) {tail : Bytes}
    (hlength : tail.length = pending.more + 1)
    (hfirst : ∀ c ∈ tail.head?, pending.low ≤ c ∧ c ≤ pending.high)
    (htail : ∀ c ∈ tail, 0x80 ≤ c ∧ c ≤ 0xBF) : ∃ char, encodeChar char = b :: tail := by
  simp only [UInt8.le_iff_toNat_le] at hfirst htail
  obtain ⟨hmore, hb⟩ | ⟨hmore, hge, hlt, hlow, hhigh⟩ | ⟨hmore, hge, hle, hlow, hhigh⟩ :=
    cases_of_lead h
  · rw [hmore] at hlength
    obtain ⟨c, rfl⟩ := List.length_eq_one_iff.1 hlength
    exact exists_encodeChar_two hb (htail c (by simp))
  · rw [hmore] at hlength
    obtain ⟨c, d, rfl⟩ := List.length_eq_two.1 hlength
    obtain ⟨hfirst, hfirst'⟩ := hfirst c rfl
    refine exists_encodeChar_three ⟨hge, hlt⟩ (htail c (by simp)) (htail d (by simp)) ?_ ?_
    · intro hsmall
      rwa [hlow hsmall] at hfirst
    · intro hsurrogate
      rwa [hhigh hsurrogate] at hfirst'
  · rw [hmore] at hlength
    obtain ⟨c, d, e, rfl⟩ := List.length_eq_three.1 hlength
    obtain ⟨hfirst, hfirst'⟩ := hfirst c rfl
    refine exists_encodeChar_four ⟨hge, hle⟩ (htail c (by simp)) (htail d (by simp))
      (htail e (by simp)) ?_ ?_
    · intro hsmall
      rwa [hlow hsmall] at hfirst
    · intro hlarge
      rwa [hhigh hlarge] at hfirst'

/-! ## Whole texts -/

/-- Where nothing is ill-formed, the bytes begin with those of a character. -/
lemma exists_encodeChar_append
    (h : none ∉ ((b :: bytes).foldl Decoder.step ⟨out, none⟩).finish) :
    ∃ char after, b :: bytes = encodeChar char ++ after := by
  have hstep : Decoder.step ⟨out, none⟩ b = Decoder.begin out b := rfl
  rw [List.foldl_cons, hstep, Decoder.begin] at h
  cases hlead : lead b with
  | ascii =>
    obtain ⟨char, hchar⟩ := exists_encodeChar_of_ascii hlead
    exact ⟨char, bytes, by rw [hchar]; rfl⟩
  | opens pending =>
    rw [hlead] at h
    obtain ⟨tail, after, rfl, hlength, hfirst, htail⟩ :=
      exists_tail (low_of_lead hlead) (high_of_lead hlead) h
    obtain ⟨char, hchar⟩ := exists_encodeChar_of_opens hlead hlength hfirst htail
    exact ⟨char, after, by rw [hchar]; rfl⟩
  | illFormed =>
    rw [hlead] at h
    exact absurd (Decoder.mem_finish_foldl List.mem_cons_self bytes) h

lemma encodeChar_ne_nil (c : Char) : encodeChar c ≠ [] := by
  unfold encodeChar
  simp only
  split_ifs <;> exact List.cons_ne_nil _ _

/-- Bytes without an ill-formed chunk are the bytes of characters. -/
lemma exists_flatMap_encodeChar (bytes : Bytes) (out : List (Option Char))
    (h : none ∉ (bytes.foldl Decoder.step ⟨out, none⟩).finish) :
    ∃ cs : List Char, bytes = cs.flatMap encodeChar := by
  match bytes, h with
  | [], _ => exact ⟨[], rfl⟩
  | b :: rest, h =>
    obtain ⟨char, after, hsplit⟩ := exists_encodeChar_append h
    have hpos := List.length_pos_iff.2 (encodeChar_ne_nil char)
    have hlength : rest.length + 1 = (encodeChar char).length + after.length := by
      rw [← List.length_append, ← hsplit, List.length_cons]
    have hlt : after.length < rest.length + 1 := by omega
    rw [hsplit, List.foldl_append, foldl_step_encodeChar] at h
    obtain ⟨cs, rfl⟩ := exists_flatMap_encodeChar after (some char :: out) h
    exact ⟨char :: cs, by rw [hsplit, List.flatMap_cons]⟩
termination_by bytes.length

lemma none_notMem_of_mapM {pieces : List (Option Char)} {cs : List Char}
    (h : pieces.mapM id = some cs) : none ∉ pieces := by
  induction pieces generalizing cs with
  | nil => exact List.not_mem_nil
  | cons piece pieces ih =>
    cases piece with
    | none => simp [List.mapM_cons] at h
    | some c =>
      cases hrest : pieces.mapM id with
      | none => simp [List.mapM_cons, hrest] at h
      | some rest => simpa using ih hrest

/-- **What can be decoded** is what encodes a text, and it is decoded as that text. -/
theorem decode?_eq_some_iff {bytes : Bytes} {text : String} :
    decode? bytes = some text ↔ encode text = bytes := by
  constructor
  · intro h
    obtain ⟨cs, hcs, -⟩ := Option.map_eq_some_iff.1 h
    obtain ⟨chars, rfl⟩ := exists_flatMap_encodeChar bytes [] (none_notMem_of_mapM hcs)
    have hencode : encode (String.ofList chars) = chars.flatMap encodeChar := by
      rw [encode, String.toList_ofList]
    rw [← hencode, decode?_encode] at h
    rw [← Option.some.inj h, hencode]
  · rintro rfl
    exact decode?_encode text

/-- The text of an encoding, with no character replaced. -/
lemma decodeLossy_encode (text : String) : decodeLossy (encode text) = text := by
  rw [decodeLossy, pieces_encode, List.map_map]
  simp [Function.comp_def]

/-! ## Valid bytes -/

/-- Bytes that are UTF-8 throughout. -/
def Valid (bytes : Bytes) : Prop := (decode? bytes).isSome = true

instance (bytes : Bytes) : Decidable (Valid bytes) :=
  inferInstanceAs (Decidable (_ = true))

lemma valid_iff {bytes : Bytes} : Valid bytes ↔ ∃ text, encode text = bytes := by
  rw [Valid, Option.isSome_iff_exists]
  simp only [decode?_eq_some_iff]

/-- Neither an overlong form nor a surrogate nor a number past the last code point is valid. -/
example : ¬ Valid [0xC0, 0x80] ∧ ¬ Valid [0xE0, 0x9F, 0xBF] ∧ ¬ Valid [0xED, 0xA0, 0x80] ∧
    Valid [0xF4, 0x8F, 0xBF, 0xBF] ∧ ¬ Valid [0xF4, 0x90, 0x80, 0x80] := by
  decide

lemma valid_encode (text : String) : Valid (encode text) := valid_iff.2 ⟨text, rfl⟩

lemma Valid.append {a b : Bytes} (ha : Valid a) (hb : Valid b) : Valid (a ++ b) := by
  obtain ⟨text, rfl⟩ := valid_iff.1 ha
  obtain ⟨text', rfl⟩ := valid_iff.1 hb
  exact valid_iff.2 ⟨text ++ text', encode_append text text'⟩

lemma valid_flatMap {α : Type u} {f : α → Bytes} {l : List α} (h : ∀ x ∈ l, Valid (f x)) :
    Valid (l.flatMap f) := by
  induction l with
  | nil => exact valid_encode ""
  | cons x l ih =>
    obtain ⟨hx, hl⟩ := List.forall_mem_cons.1 h
    rw [List.flatMap_cons]
    exact hx.append (ih hl)

lemma Valid.intercalate {separator : Bytes} (h : Valid separator) {parts : List Bytes}
    (hparts : ∀ part ∈ parts, Valid part) : Valid (separator.intercalate parts) := by
  induction parts with
  | nil => exact valid_encode ""
  | cons part parts ih =>
    obtain ⟨hpart, hparts⟩ := List.forall_mem_cons.1 hparts
    cases parts with
    | nil => simpa using hpart
    | cons next parts =>
      rw [List.intercalate_cons_cons]
      exact (hpart.append h).append (ih hparts)

/-- Bytes below `0x80` are characters of their own. -/
lemma valid_of_forall_lt {bytes : Bytes} (h : ∀ b ∈ bytes, b < 0x80) : Valid bytes := by
  induction bytes using List.reverseRecOn with
  | nil => exact valid_encode ""
  | append_singleton front b ih =>
    rw [List.forall_mem_append] at h
    have hfront := ih h.1
    rw [Valid, decode?_concat (h.2 b (by simp)), Option.isSome_map]
    exact hfront

end ExpiringStore.Utf8
