/-!
# Rounding to significant bits

A number is rounded to a given count of significant bits by keeping its leading bits. The nearest of
the two candidates is taken, and of two equally near ones that with the even last bit.
-/

namespace ExpiringStore

/-- `n` without its last `shift` bits, rounded to the nearest whole number, a half to the even
one. -/
def shiftRounded (n shift : Nat) : Nat :=
  let unit := 1 <<< shift
  let low := n / unit
  let rest := n % unit
  if 2 * rest > unit ∨ 2 * rest = unit ∧ low % 2 = 1 then low + 1 else low

/-- `n` rounded to `bits` significant bits. -/
def roundSignificant (bits n : Nat) : Nat :=
  let shift := n.log2 + 1 - bits
  shiftRounded n shift <<< shift

end ExpiringStore
