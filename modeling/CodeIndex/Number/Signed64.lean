/-!
# Signed numbers of 64 bits

A natural number below 2⁶⁴ read as a signed number of the same bits, and back.
-/

namespace CodeIndex.Number

/-- How many numbers have 64 bits. -/
def count64 : Nat := 18446744073709551616

/-- The smallest positive number that is too large to be signed. -/
def signedBound64 : Int := 9223372036854775808

/-- The signed number with the low 64 bits of `n`. -/
def toSigned64 (n : Nat) : Int :=
  Int.bmod n count64

/-- The natural number with the same 64 bits. -/
def ofSigned64 (n : Int) : Nat :=
  (n % count64).toNat

/-- Nothing is lost on the way there and back. -/
theorem ofSigned64_toSigned64 {n : Nat} (h : n < count64) : ofSigned64 (toSigned64 n) = n := by
  unfold ofSigned64 toSigned64
  rw [Int.bmod_emod, Int.emod_eq_of_lt (Int.natCast_nonneg n) (Int.ofNat_lt.2 h)]
  exact Int.toNat_natCast n

end CodeIndex.Number
