import ExpiringStore.Proofs.Access.Digest
import ExpiringStore.Proofs.Text.Utf8

/-!
# A password is accepted only under its own name

The message that stands for a password begins with the length of the user's name, in eight bytes of
which the first is the most significant.  Whoever reads the message therefore knows where the name
ends, and no other name and password give the same one (`Digest.credentials_inj`): a character moved
from the name to the password changes the length in front.

The digest itself is shorter than most messages, so two of them can have the same digest.  Wherever
that is not so (`Sha256.Apart`), an account accepts the password it was created with and no other,
and two accounts have the same digest only if they have the same name and the same password.
-/

namespace ExpiringStore

/-! ## The length in front -/

namespace Bytes

/-- The number that the bytes write to the base 256, the most significant first. -/
def number (bytes : Bytes) : Nat := bytes.foldl (fun n b => n * 256 + b.toNat) 0

/-- The next byte of a number goes behind those before it. -/
lemma div_pow_mul_add_mod (n i : Nat) :
    n / 2 ^ (8 * (i + 1)) * 256 + n / 2 ^ (8 * i) % 256 = n / 2 ^ (8 * i) := by
  have hpow : 2 ^ (8 * (i + 1)) = 2 ^ (8 * i) * 256 := Nat.pow_add 2 (8 * i) 8
  rw [hpow, ← Nat.div_div_eq_div_mul]
  exact Nat.div_add_mod' _ 256

/-- **A word is written in full.** -/
lemma number_ofWord64 (w : UInt64) : number (ofWord64 w) = w.toNat := by
  have htop : w.toNat / 2 ^ 56 < 256 := Nat.div_lt_of_lt_mul w.toNat_lt
  have hnext := div_pow_mul_add_mod w.toNat
  rw [number, ofWord64, List.foldl_map]
  simp only [UInt64.toNat_toUInt8, UInt64.toNat_shiftRight, Nat.shiftRight_eq_div_pow,
    List.foldl_cons, List.foldl_nil, UInt64.reduceToNat, Nat.reduceMod]
  rw [Nat.zero_mul, Nat.zero_add, Nat.mod_eq_of_lt htop, hnext 6, hnext 5, hnext 4, hnext 3,
    hnext 2, hnext 1, hnext 0]
  exact Nat.div_one _

lemma ofWord64_injective : Function.Injective ofWord64 := by
  intro v w h
  rw [← UInt64.toNat_inj, ← number_ofWord64 v, h, number_ofWord64]

end Bytes

/-! ## The message -/

namespace Digest

/-- Where the message has its parts. -/
lemma credentials_eq {username : String} (h : (Utf8.encode username).length < 2 ^ 64)
    (password : String) :
    ∃ size : Bytes, size.length = 8 ∧ size.number = (Utf8.encode username).length ∧
      credentials username password = size ++ Utf8.encode username ++ Utf8.encode password := by
  refine ⟨_, Bytes.length_ofWord64 _, ?_, rfl⟩
  rw [Bytes.number_ofWord64, UInt64.toNat_ofNat_of_lt' h]

/-- **The message tells the name from the password.** -/
theorem credentials_inj {u v : String} (hu : (Utf8.encode u).length < 2 ^ 64)
    (hv : (Utf8.encode v).length < 2 ^ 64) (p q : String) :
    credentials u p = credentials v q ↔ u = v ∧ p = q := by
  constructor
  · intro h
    rw [credentials, credentials, List.append_assoc, List.append_assoc] at h
    -- eight bytes are the length on both sides
    obtain ⟨hsize, hrest⟩ := List.append_inj h rfl
    have hword := congrArg UInt64.toNat (Bytes.ofWord64_injective hsize)
    rw [UInt64.toNat_ofNat_of_lt' hu, UInt64.toNat_ofNat_of_lt' hv] at hword
    -- and so the names end at the same place
    obtain ⟨hname, hpassword⟩ := List.append_inj hrest hword
    exact ⟨Utf8.encode_injective hname, Utf8.encode_injective hpassword⟩
  · rintro ⟨rfl, rfl⟩
    rfl

/-- Digests of 32 bytes are the same if they have the same byte in each place. -/
lemma eq_iff_forall_getElem? (a b : Digest) : a = b ↔ ∀ i < 32, a.bytes[i]? = b.bytes[i]? := by
  constructor
  · rintro rfl i -
    rfl
  · intro h
    have hbytes : a.bytes = b.bytes := by
      refine List.ext_getElem? fun i => ?_
      by_cases hi : i < 32
      · exact h i hi
      · rw [List.getElem?_eq_none (by rw [a.length_eq]; omega),
          List.getElem?_eq_none (by rw [b.length_eq]; omega)]
    obtain ⟨bytes, hlength⟩ := a
    subst hbytes
    rfl

end Digest

/-! ## The digest -/

/-- The digest tells the two messages apart. -/
def Sha256.Apart (m n : Bytes) : Prop := hash m = hash n → m = n

lemma Digest.ofCredentials_inj {u v p q : String} (hu : (Utf8.encode u).length < 2 ^ 64)
    (hv : (Utf8.encode v).length < 2 ^ 64)
    (hapart : Sha256.Apart (credentials u p) (credentials v q)) :
    ofCredentials u p = ofCredentials v q ↔ u = v ∧ p = q := by
  rw [← credentials_inj hu hv, ofCredentials, ofCredentials, Digest.mk.injEq]
  exact ⟨hapart, congrArg Sha256.hash⟩

/-- **Passwords verify exactly.**  The names are shorter than `2 ^ 64` bytes.  The message that
stands for a name and a password is the length of the name in eight bytes, the name, and the
password; and it is the message of no other name and password.  Digests agree if they are the same
in all of their 32 bytes.  So where the digest tells two messages apart, an account accepts the
password it was created with and not the other one, and the digests of two accounts agree only if
both the names and the passwords are the same. -/
theorem Account.accepts_own_password {u v : String} (hu : (Utf8.encode u).length < 2 ^ 64)
    (hv : (Utf8.encode v).length < 2 ^ 64) (p q : String) (access other : AccessLevel) :
    (∃ size : Bytes, size.length = 8 ∧ size.number = (Utf8.encode u).length ∧
      Digest.credentials u p = size ++ Utf8.encode u ++ Utf8.encode p) ∧
    (Digest.credentials u p = Digest.credentials v q ↔ u = v ∧ p = q) ∧
    (∀ a b : Digest, a.agrees b = true ↔ ∀ i < 32, a.bytes[i]? = b.bytes[i]?) ∧
    (Sha256.Apart (Digest.credentials u p) (Digest.credentials u q) →
      ((create u p access).accepts q = true ↔ q = p)) ∧
    (Sha256.Apart (Digest.credentials u p) (Digest.credentials v q) →
      ((create u p access).password.agrees (create v q other).password = true ↔
        u = v ∧ p = q)) := by
  refine ⟨Digest.credentials_eq hu p, Digest.credentials_inj hu hv p q, ?_, ?_, ?_⟩
  · intro a b
    rw [Digest.agrees_iff, Digest.eq_iff_forall_getElem?]
  · intro hapart
    rw [accepts_create_iff, Digest.ofCredentials_inj hu hu hapart, eq_comm (a := q)]
    exact and_iff_right rfl
  · intro hapart
    rw [Digest.agrees_iff]
    exact Digest.ofCredentials_inj hu hv hapart

/-- One character has moved from the name to the password. -/
theorem Account.accepts_at_moved_border :
    let ab := create "ab" "c" .admin
    let a := create "a" "bc" .admin
    (Utf8.encode "ab").length < 2 ^ 64 ∧ (Utf8.encode "a").length < 2 ^ 64 ∧
    Sha256.Apart (Digest.credentials "ab" "c") (Digest.credentials "ab" "bc") ∧
    Sha256.Apart (Digest.credentials "ab" "c") (Digest.credentials "a" "bc") ∧
    Digest.credentials "ab" "c" ≠ Digest.credentials "a" "bc" ∧
    ab.accepts "c" = true ∧ ab.accepts "bc" = false ∧ ab.password.agrees a.password = false := by
  intro ab a
  have hab : (Utf8.encode "ab").length < 2 ^ 64 := by decide
  have ha : (Utf8.encode "a").length < 2 ^ 64 := by decide
  have hpassword : Sha256.Apart (Digest.credentials "ab" "c") (Digest.credentials "ab" "bc") :=
    fun h => absurd h (by decide +kernel)
  have hname : Sha256.Apart (Digest.credentials "ab" "c") (Digest.credentials "a" "bc") :=
    fun h => absurd h (by decide +kernel)
  obtain ⟨-, -, -, hown, -⟩ := accepts_own_password hab ha "c" "c" .admin .admin
  obtain ⟨-, -, -, hother, -⟩ := accepts_own_password hab ha "c" "bc" .admin .admin
  obtain ⟨-, hmessage, -, -, hagree⟩ := accepts_own_password hab ha "c" "bc" .admin .admin
  refine ⟨hab, ha, hpassword, hname, ?_, ?_, ?_, ?_⟩
  · exact fun h => absurd (hmessage.1 h).1 (by decide)
  · exact (hown fun _ => rfl).2 rfl
  · exact Bool.eq_false_iff.2 fun h => absurd ((hother hpassword).1 h) (by decide)
  · exact Bool.eq_false_iff.2 fun h => absurd ((hagree hname).1 h).1 (by decide)

end ExpiringStore
