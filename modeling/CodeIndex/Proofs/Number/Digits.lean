import CodeIndex.Number.Decimal
import Mathlib.Algebra.GroupWithZero.Nat
/-!
# Padded digits

A number with few enough digits, filled up with zeros to a width, is exactly as many digits as the
width says, and they write the number.
-/

namespace CodeIndex.Number

/-- Reading digits is what the core library calls `Nat.ofDigitChars`. -/
theorem valueFrom_eq (acc : Nat) (cs : List Char) :
    valueFrom acc cs = Nat.ofDigitChars 10 cs acc := by
  induction cs generalizing acc with
  | nil =>
    rw [Nat.ofDigitChars_nil]
    rfl
  | cons c cs ih =>
    show valueFrom (acc * 10 + digitValue c) cs = _
    rw [ih, Nat.ofDigitChars_cons, digitValue, Nat.mul_comm]
    rfl

theorem valueFrom_paddedDigits (width n : Nat) : valueFrom 0 (paddedDigits width n) = n := by
  rw [valueFrom_eq, paddedDigits, Nat.ofDigitChars_append, Nat.ofDigitChars_replicate_zero,
    Nat.mul_zero, digits, Nat.ofDigitChars_ten_toDigits]

theorem isDigit_of_mem_paddedDigits {width n : Nat} {c : Char} (h : c ∈ paddedDigits width n) :
    isDigit c = true := by
  rcases List.mem_append.mp h with hzero | hdigit
  · rw [List.eq_of_mem_replicate hzero]
    rfl
  · have hc := Nat.isDigit_of_mem_toDigits (by decide) (Nat.le_refl 10) hdigit
    rw [Char.isDigit, Bool.and_eq_true, decide_eq_true_iff, decide_eq_true_iff] at hc
    rw [isDigit, Bool.and_eq_true, decide_eq_true_iff, decide_eq_true_iff]
    exact hc

theorem length_paddedDigits {width n : Nat} (hwidth : 0 < width) (hn : n < 10 ^ width) :
    (paddedDigits width n).length = width := by
  have hle := (Nat.length_toDigits_le_iff (by decide : 1 < 10) hwidth).mpr hn
  rw [paddedDigits, List.length_append, List.length_replicate, digits]
  omega

end CodeIndex.Number
