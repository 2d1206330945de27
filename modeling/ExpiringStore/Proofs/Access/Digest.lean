import ExpiringStore.Access.Account
import Mathlib.Tactic.Lemma

/-!
# Comparing digests

Digests are compared by collecting the differing bits of all pairs of bytes.  No bit is left over
exactly if the digests are the same, since a byte that is collected never leaves again.  So a
password is accepted exactly if it has the digest that the account holds.
-/

namespace ExpiringStore

namespace Digest

/-- Bits that have been collected stay. -/
lemma foldl_or_eq_zero_iff (bits : Bytes) (collected : UInt8) :
    bits.foldl (· ||| ·) collected = 0 ↔ collected = 0 ∧ ∀ b ∈ bits, b = 0 := by
  induction bits generalizing collected with
  | nil => simp
  | cons b bits ih =>
    rw [List.foldl_cons, ih, UInt8.or_eq_zero_iff, List.forall_mem_cons, and_assoc]

lemma forall_zipWith_xor_iff {a b : Bytes} (h : a.length = b.length) :
    (∀ bits ∈ List.zipWith (· ^^^ ·) a b, bits = 0) ↔ a = b := by
  induction a generalizing b with
  | nil => simp [List.length_eq_zero_iff.1 h.symm]
  | cons x a ih =>
    cases b with
    | nil => simp at h
    | cons y b =>
      have hrest : a.length = b.length := by simpa using h
      rw [List.zipWith_cons_cons, List.forall_mem_cons, ih hrest, UInt8.xor_eq_zero_iff,
        List.cons.injEq]

/-- **Digests agree if they are the same.** -/
theorem agrees_iff (a b : Digest) : a.agrees b = true ↔ a = b := by
  have hlength : a.bytes.length = b.bytes.length := a.length_eq.trans b.length_eq.symm
  rw [agrees, beq_iff_eq, foldl_or_eq_zero_iff, forall_zipWith_xor_iff hlength, mk.injEq]
  exact and_iff_right rfl

end Digest

lemma Account.accepts_create_iff (username own password : String) (access : AccessLevel) :
    (Account.create username own access).accepts password = true ↔
      Digest.ofCredentials username own = Digest.ofCredentials username password :=
  Digest.agrees_iff _ _

end ExpiringStore
