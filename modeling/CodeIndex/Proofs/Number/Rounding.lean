import CodeIndex.Number.Binary32
import Mathlib.Algebra.GroupWithZero.Nat
import Mathlib.Data.Nat.Log
import Mathlib.Tactic.SplitIfs
/-!
# Bounds on rounding

How far rounding to 24 significant bits can take a quotient: upwards by one unit in the last place
at most (`roundUnits_le`), and downwards no farther than to the power of two that it begins with
(`two_pow_log2_le_roundUnits`).
-/

namespace CodeIndex.Number

theorem div_le_roundHalfEven (num den : Nat) : num / den ≤ roundHalfEven num den := by
  unfold roundHalfEven
  dsimp only
  split_ifs <;> omega

theorem roundHalfEven_le (num den : Nat) : roundHalfEven num den ≤ num / den + 1 := by
  unfold roundHalfEven
  dsimp only
  split_ifs <;> omega

namespace Binary32

theorem roundUnits_le (num den : Nat) :
    roundUnits num den ≤ num / den + 2 ^ excessBits (num / den) := by
  have hround := roundHalfEven_le num (den * 2 ^ excessBits (num / den))
  rw [← Nat.div_div_eq_div_mul] at hround
  unfold roundUnits
  calc roundHalfEven num (den * 2 ^ excessBits (num / den)) * 2 ^ excessBits (num / den)
      ≤ (num / den / 2 ^ excessBits (num / den) + 1) * 2 ^ excessBits (num / den) :=
        Nat.mul_le_mul_right _ hround
    _ = num / den / 2 ^ excessBits (num / den) * 2 ^ excessBits (num / den)
          + 2 ^ excessBits (num / den) := by rw [Nat.succ_mul]
    _ ≤ num / den + 2 ^ excessBits (num / den) :=
        Nat.add_le_add_right (Nat.div_mul_le_self _ _) _

theorem two_pow_log2_le_roundUnits {num den : Nat} (h : num / den ≠ 0) :
    2 ^ (num / den).log2 ≤ roundUnits num den := by
  have hround := div_le_roundHalfEven num (den * 2 ^ excessBits (num / den))
  rw [← Nat.div_div_eq_div_mul] at hround
  have hexcess : excessBits (num / den) ≤ (num / den).log2 := by
    unfold excessBits
    omega
  -- The leading power of two is a multiple of the last place, so it is not cut.
  have hsplit : 2 ^ (num / den).log2 = 2 ^ ((num / den).log2 - excessBits (num / den))
      * 2 ^ excessBits (num / den) := by
    rw [← Nat.pow_add, Nat.sub_add_cancel hexcess]
  have hquotient : 2 ^ ((num / den).log2 - excessBits (num / den))
      ≤ num / den / 2 ^ excessBits (num / den) := by
    rw [Nat.le_div_iff_mul_le (Nat.two_pow_pos _), ← hsplit]
    exact Nat.log2_self_le h
  rw [hsplit]
  exact Nat.mul_le_mul_right _ (Nat.le_trans hquotient hround)

/-- A quotient of at least one is not rounded below one. -/
theorem le_ofNat {n : Nat} (h : 0 < n) : unitsInOne ≤ (ofNat n).units := by
  have hle : unitsInOne ≤ n * unitsInOne / 1 := by
    rw [Nat.div_one]
    exact Nat.le_mul_of_pos_left _ h
  have hpos : 0 < unitsInOne := Nat.two_pow_pos 149
  have hlog : 149 ≤ (n * unitsInOne / 1).log2 :=
    (Nat.le_log2 (Nat.ne_of_gt (Nat.lt_of_lt_of_le hpos hle))).mpr hle
  calc unitsInOne = 2 ^ 149 := rfl
    _ ≤ 2 ^ (n * unitsInOne / 1).log2 := Nat.pow_le_pow_right Nat.two_pos hlog
    _ ≤ (ofNat n).units :=
      two_pow_log2_le_roundUnits (Nat.ne_of_gt (Nat.lt_of_lt_of_le hpos hle))

/-- Shared among any number, a number grows by one unit in its last place at most. -/
theorem div_ofNat_le (x : Binary32) {n : Nat} (h : 0 < n) :
    (div x (ofNat n)).units ≤ x.units + 2 ^ excessBits x.units := by
  have hquotient : x.units * unitsInOne / (ofNat n).units ≤ x.units := by
    apply Nat.div_le_of_le_mul
    rw [Nat.mul_comm]
    exact Nat.mul_le_mul_right _ (le_ofNat h)
  have hexcess : excessBits (x.units * unitsInOne / (ofNat n).units) ≤ excessBits x.units := by
    have hlog := Nat.log_mono_right (b := 2) hquotient
    rw [← Nat.log2_eq_log_two, ← Nat.log2_eq_log_two] at hlog
    unfold excessBits
    omega
  calc (div x (ofNat n)).units
      ≤ x.units * unitsInOne / (ofNat n).units
          + 2 ^ excessBits (x.units * unitsInOne / (ofNat n).units) := roundUnits_le _ _
    _ ≤ x.units + 2 ^ excessBits x.units :=
        Nat.add_le_add hquotient (Nat.pow_le_pow_right Nat.two_pos hexcess)

end Binary32

end CodeIndex.Number
