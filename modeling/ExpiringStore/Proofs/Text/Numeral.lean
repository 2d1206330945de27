import ExpiringStore.Text.Numeral
import Mathlib.Data.List.Induction
import Mathlib.Data.Nat.Digits.Defs

/-!
# The value of a numeral

`Numeral.value` is the value of a run of digits in base ten.  A run of digits is read as its value
when that is below the bound, and is too large otherwise (`readDigits_eq`), whatever number of zeros
stands in front: the reader looks at the bound after every digit, and the values of the parts read
so far only grow.

`Numeral.written` writes a number with any number of zeros in front.  These texts are exactly the
runs of digits with that value (`value_written`, `exists_written`).

A text that is more than digits and a plus sign in front, or less, has a `fault` (`read_eq_ite`).
-/

namespace ExpiringStore.Numeral

/-- The value of digits, the most significant first. -/
def value (cs : List Char) : Nat := Nat.ofDigits 10 (cs.reverse.map digitValue)

@[simp] lemma value_nil : value [] = 0 := rfl

lemma value_cons (c : Char) (cs : List Char) :
    value (c :: cs) = digitValue c * 10 ^ cs.length + value cs := by
  unfold value
  rw [List.reverse_cons, List.map_append, Nat.ofDigits_append]
  simp only [List.map_cons, List.map_nil, Nat.ofDigits_singleton, List.length_map,
    List.length_reverse]
  ring

lemma readDigits_eq {bound start : Nat} {cs : List Char} (hcs : ∀ c ∈ cs, c.isDigit = true)
    (hstart : start < bound) :
    readDigits bound start cs =
      if start * 10 ^ cs.length + value cs < bound then
        .ok (start * 10 ^ cs.length + value cs)
      else .error .tooLarge := by
  induction cs generalizing start with
  | nil => simp [readDigits, hstart]
  | cons c cs ih =>
    obtain ⟨hc, hcs⟩ := List.forall_mem_cons.1 hcs
    have htotal : start * 10 ^ (c :: cs).length + value (c :: cs) =
        (start * 10 + digitValue c) * 10 ^ cs.length + value cs := by
      rw [value_cons, List.length_cons]
      ring
    rw [htotal]
    simp only [readDigits, hc, if_true]
    by_cases hnext : start * 10 + digitValue c < bound
    · rw [if_pos hnext, ih hcs hnext]
    · -- the part read so far is too large already
      have hle : start * 10 + digitValue c ≤
          (start * 10 + digitValue c) * 10 ^ cs.length + value cs :=
        (Nat.le_mul_of_pos_right _ (by positivity)).trans (Nat.le_add_right _ _)
      rw [if_neg hnext, if_neg (by omega)]

/-- A text of one or more digits is read as its value, below the bound. -/
lemma read_eq {bound : Nat} {text : String} (hne : text.toList ≠ [])
    (hdigits : ∀ c ∈ text.toList, c.isDigit = true) (hbound : 0 < bound) :
    read bound text =
      if value text.toList < bound then .ok (value text.toList) else .error .tooLarge := by
  unfold read
  split
  · rename_i h
    exact absurd h hne
  · rename_i h
    have := hdigits '+' (by simp [h])
    simp at this
  · rename_i digits _ h
    have := hdigits '+' (by simp [h])
    simp at this
  · rw [readDigits_eq hdigits hbound]
    simp

/-! ## Writing numbers -/

/-- A number in base ten, behind zeros. -/
def written (zeros n : Nat) : String :=
  String.ofList (List.replicate zeros '0' ++ Nat.toDigits 10 n)

lemma value_concat (cs : List Char) (c : Char) :
    value (cs ++ [c]) = 10 * value cs + digitValue c := by
  simp [value, Nat.ofDigits_cons, Nat.add_comm]

lemma value_eq_ofDigitChars (cs : List Char) : value cs = Nat.ofDigitChars 10 cs 0 := by
  induction cs using List.reverseRecOn with
  | nil => rfl
  | append_singleton cs c ih =>
    rw [value_concat, ih, Nat.ofDigitChars_eq_foldl, Nat.ofDigitChars_eq_foldl, List.foldl_append]
    rfl

lemma value_replicate_append (zeros : Nat) (cs : List Char) :
    value (List.replicate zeros '0' ++ cs) = value cs := by
  induction zeros with
  | zero => rfl
  | succ zeros ih =>
    have hzero : digitValue '0' = 0 := rfl
    rw [List.replicate_succ, List.cons_append, value_cons, hzero, Nat.zero_mul, Nat.zero_add, ih]

lemma value_written (zeros n : Nat) : value (written zeros n).toList = n := by
  rw [written, String.toList_ofList, value_replicate_append, value_eq_ofDigitChars,
    Nat.ofDigitChars_toDigits (by decide) (Nat.le_refl 10)]

lemma isDigit_of_mem_written {zeros n : Nat} {c : Char} (hc : c ∈ (written zeros n).toList) :
    c.isDigit = true := by
  rw [written, String.toList_ofList, List.mem_append] at hc
  obtain hc | hc := hc
  · rw [List.eq_of_mem_replicate hc]
    decide
  · exact Nat.isDigit_of_mem_toDigits (by decide) (Nat.le_refl 10) hc

lemma written_ne_nil (zeros n : Nat) : (written zeros n).toList ≠ [] := by
  rw [written, String.toList_ofList]
  exact List.append_ne_nil_of_right_ne_nil _ Nat.toDigits_ne_nil

/-- A digit is how its value is written. -/
lemma toDigits_digitValue {c : Char} (hc : c.isDigit = true) :
    Nat.toDigits 10 (digitValue c) = [c] ∧ digitValue c < 10 := by
  obtain ⟨hlow, hhigh⟩ := Char.isDigit_iff_toNat.1 hc
  have hzero : '0'.toNat = 48 := rfl
  have hnine : '9'.toNat = 57 := rfl
  have hlt : digitValue c < 10 := by
    rw [digitValue]
    omega
  have hchar : (digitValue c).digitChar = c := by
    rw [← Char.toNat_inj, Nat.toNat_digitChar_of_lt_ten hlt, digitValue]
    omega
  exact ⟨by rw [Nat.toDigits_of_lt_base hlt, hchar], hlt⟩

/-- Digits are how their value is written, behind zeros. -/
lemma exists_written {cs : List Char} (hne : cs ≠ []) (hcs : ∀ c ∈ cs, c.isDigit = true) :
    ∃ zeros, cs = (written zeros (value cs)).toList := by
  induction cs using List.reverseRecOn with
  | nil => exact absurd rfl hne
  | append_singleton cs c ih =>
    obtain ⟨hdigit, hlt⟩ := toDigits_digitValue (hcs c (by simp))
    rw [value_concat]
    by_cases hfirst : cs = []
    · refine ⟨0, ?_⟩
      rw [hfirst, written, String.toList_ofList, value_nil, Nat.mul_zero, Nat.zero_add, hdigit]
      rfl
    · obtain ⟨zeros, hzeros⟩ := ih hfirst fun d hd => hcs d (by simp [hd])
      rw [written, String.toList_ofList] at hzeros
      obtain hzero | hpos := Nat.eq_zero_or_pos (value cs)
      · -- all digits before the last one are zeros
        refine ⟨zeros + 1, ?_⟩
        rw [hzero] at hzeros ⊢
        rw [written, String.toList_ofList, Nat.mul_zero, Nat.zero_add, hdigit, hzeros,
          List.replicate_succ', Nat.toDigits_of_lt_base (by decide)]
        rfl
      · refine ⟨zeros, ?_⟩
        rw [written, String.toList_ofList, ← Nat.toDigits_append_toDigits (by decide) hpos hlt,
          hdigit, ← List.append_assoc, ← hzeros]

/-! ## Texts that are no numerals -/

/-- The characters of a text behind an optional plus sign. -/
def unsigned (text : String) : List Char :=
  match text.toList with
  | '+' :: digits => digits
  | digits => digits

/-- An optional plus sign and one or more digits. -/
def IsNumeral (text : String) : Prop :=
  unsigned text ≠ [] ∧ ∀ c ∈ unsigned text, c.isDigit = true

instance (text : String) : Decidable (IsNumeral text) :=
  decidable_of_iff (unsigned text ≠ [] ∧ (unsigned text).all Char.isDigit = true)
    (and_congr_right fun _ => List.all_eq_true)

/-- The value of a numeral. -/
def amount (text : String) : Nat := value (unsigned text)

/-- What is wrong with a text that is no numeral below `bound`: the bound is reached by the digits
in front of the first character that is none, or else that character is wrong. -/
def fault (bound : Nat) (text : String) : Fault :=
  if text.toList = [] then .empty
  else if bound ≤ value ((unsigned text).takeWhile Char.isDigit) then .tooLarge
  else .invalidDigit

lemma readDigits_append (bound start : Nat) (a b : List Char) :
    readDigits bound start (a ++ b) =
      (readDigits bound start a).bind fun next => readDigits bound next b := by
  induction a generalizing start with
  | nil => rfl
  | cons c a ih =>
    simp only [List.cons_append, readDigits]
    split_ifs
    · exact ih _
    · rfl
    · rfl

/-- Characters that need not be digits. -/
lemma readDigits_zero {bound : Nat} (hbound : 0 < bound) (cs : List Char) :
    readDigits bound 0 cs =
      if cs.all Char.isDigit = true ∧ value cs < bound then .ok (value cs)
      else .error
        (if bound ≤ value (cs.takeWhile Char.isDigit) then .tooLarge else .invalidDigit) := by
  have hdigits : ∀ c ∈ cs.takeWhile Char.isDigit, c.isDigit = true :=
    List.all_eq_true.1 List.all_takeWhile
  have hsplit : cs.takeWhile Char.isDigit ++ cs.dropWhile Char.isDigit = cs :=
    List.takeWhile_append_dropWhile
  have hread := readDigits_eq hdigits hbound
  rw [Nat.zero_mul, Nat.zero_add] at hread
  cases hrest : cs.dropWhile Char.isDigit with
  | nil =>
    rw [hrest, List.append_nil] at hsplit
    rw [hsplit] at hdigits hread ⊢
    rw [hread]
    by_cases hlt : value cs < bound
    · rw [if_pos hlt, if_pos ⟨List.all_eq_true.2 hdigits, hlt⟩]
    · rw [if_neg hlt, if_neg fun h => hlt h.2, if_pos (Nat.le_of_not_lt hlt)]
  | cons c rest =>
    have hc : ¬c.isDigit = true := by
      have := List.head?_dropWhile_not Char.isDigit cs
      rw [hrest] at this
      simpa using this
    have hmem : c ∈ cs := by
      rw [← hsplit, hrest]
      simp
    rw [if_neg fun h => hc (List.all_eq_true.1 h.1 c hmem)]
    conv_lhs => rw [← hsplit, hrest, readDigits_append, hread]
    by_cases hlt : value (cs.takeWhile Char.isDigit) < bound
    · rw [if_pos hlt, if_neg (Nat.not_le.2 hlt)]
      simp [Except.bind, readDigits, hc]
    · rw [if_neg hlt, if_pos (Nat.le_of_not_lt hlt)]
      rfl

lemma read_eq_readDigits (bound : Nat) (text : String) :
    read bound text =
      if text.toList = [] then .error .empty
      else if unsigned text = [] then .error .invalidDigit
      else readDigits bound 0 (unsigned text) := by
  unfold read
  split
  · rename_i h
    rw [if_pos h]
  · rename_i h
    have hunsigned : unsigned text = [] := by simp only [unsigned, h]
    rw [if_neg (by simp [h]), if_pos hunsigned]
  · rename_i digits hne h
    have hunsigned : unsigned text = digits := by simp only [unsigned, h]
    rw [if_neg (by simp [h]), hunsigned, if_neg hne]
  · rename_i hnil hplus hsign
    have hunsigned : unsigned text = text.toList := by
      unfold unsigned
      split
      · rename_i digits h
        exact absurd h (hsign digits)
      · rfl
    rw [hunsigned, if_neg hnil, if_neg hnil]

/-- **Reading a text.**  It is a numeral below the bound, read as its value, or it has a fault. -/
lemma read_eq_ite {bound : Nat} (hbound : 0 < bound) (text : String) :
    read bound text =
      if IsNumeral text ∧ amount text < bound then .ok (amount text)
      else .error (fault bound text) := by
  rw [read_eq_readDigits, fault]
  by_cases hsign : unsigned text = []
  · -- nothing or a sign alone
    have hvalue : ¬bound ≤ value ((unsigned text).takeWhile Char.isDigit) := by
      rw [hsign]
      exact Nat.not_le.2 hbound
    rw [if_pos hsign, if_neg fun h : IsNumeral text ∧ _ => h.1.1 hsign, if_neg hvalue]
    split_ifs <;> rfl
  · have htext : text.toList ≠ [] := by
      intro hnil
      exact hsign (by simp only [unsigned, hnil])
    have hnumeral : (unsigned text).all Char.isDigit = true ↔ IsNumeral text := by
      rw [List.all_eq_true, IsNumeral, and_iff_right hsign]
    rw [if_neg htext, if_neg hsign, if_neg htext, readDigits_zero hbound, amount]
    simp only [hnumeral]

end ExpiringStore.Numeral
