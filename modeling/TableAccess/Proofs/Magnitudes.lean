import Mathlib.Order.Monotone.Basic
import Mathlib.Tactic.SplitIfs
import TableAccess.Number.Bounds

/-!
# The steps between magnitudes

A magnitude of a binary format is a significand in units of the last place, and the next magnitude
is one such unit above it. The steps never get smaller, and they grow only at a power of two.
-/
namespace TableAccess.Number.BinaryFormat

variable (f : BinaryFormat)

/-- The unit in the last place of the magnitude at an index. -/
def ulp (index : Nat) : Nat := 2 ^ (index / 2 ^ f.fractionBits - 1)

/-- The magnitude at an index in units of its last place. -/
def significand (index : Nat) : Nat :=
  if index / 2 ^ f.fractionBits = 0 then index % 2 ^ f.fractionBits
  else 2 ^ f.fractionBits + index % 2 ^ f.fractionBits

theorem ulp_pos (i : Nat) : 0 < f.ulp i := Nat.two_pow_pos _

theorem units_eq (i : Nat) : f.units i = f.significand i * f.ulp i := by
  unfold units significand ulp
  dsimp only
  split_ifs with hzero
  · simp [hzero]
  · rfl

theorem significand_lt (i : Nat) : f.significand i < 2 ^ (f.fractionBits + 1) := by
  have hfraction := Nat.mod_lt i (Nat.two_pow_pos f.fractionBits)
  rw [significand, Nat.pow_succ]
  split_ifs <;> omega

/-- The next magnitude has the next significand, or it starts at the next power of two. -/
theorem units_succ (i : Nat) : f.units (i + 1) = f.units i + f.ulp i := by
  have hpos := Nat.two_pow_pos f.fractionBits
  unfold units ulp
  generalize 2 ^ f.fractionBits = b at hpos
  have hi := Nat.div_add_mod i b
  have hnext := Nat.div_add_mod (i + 1) b
  dsimp only
  by_cases hlast : (i + 1) % b = 0
  · rw [Nat.succ_div_of_mod_eq_zero hlast, hlast, Nat.mul_succ] at hnext
    have hfull : i % b + 1 = b := by omega
    rw [Nat.succ_div_of_mod_eq_zero hlast, hlast, if_neg (Nat.succ_ne_zero _), Nat.add_zero]
    cases i / b with
    | zero =>
      simp only [Nat.zero_add, Nat.sub_self, Nat.zero_sub, Nat.pow_zero, Nat.mul_one, if_true]
      exact hfull.symm
    | succ e =>
      have hsum : b * 2 = b + i % b + 1 := by omega
      rw [if_neg (Nat.succ_ne_zero e), Nat.add_sub_cancel, Nat.add_sub_cancel, Nat.pow_succ',
        ← Nat.mul_assoc, hsum, Nat.add_mul, Nat.one_mul]
  · rw [Nat.succ_div_of_mod_ne_zero hlast] at hnext ⊢
    have hfraction : (i + 1) % b = i % b + 1 := by omega
    rw [hfraction]
    cases i / b with
    | zero => simp
    | succ e => rw [if_neg (Nat.succ_ne_zero e), if_neg (Nat.succ_ne_zero e), ← Nat.add_assoc,
        Nat.add_mul (b + i % b), Nat.one_mul]

theorem strictMono_units : StrictMono f.units := by
  refine strictMono_nat_of_lt_succ fun i => ?_
  rw [units_succ]
  exact Nat.lt_add_of_pos_right (f.ulp_pos i)

theorem ulp_mono {i j : Nat} (h : i ≤ j) : f.ulp i ≤ f.ulp j := by
  have hdiv := Nat.div_le_div_right (c := 2 ^ f.fractionBits) h
  exact Nat.pow_le_pow_right (by decide) (by omega)

variable {f}

/-- Below a magnitude the step is as above it, unless the magnitude is a power of two. -/
theorem ulp_succ (i : Nat) :
    f.ulp (i + 1) = f.ulp i ∨ f.significand (i + 1) = 2 ^ f.fractionBits := by
  unfold ulp significand
  have hpos := Nat.two_pow_pos f.fractionBits
  by_cases hlast : (i + 1) % 2 ^ f.fractionBits = 0
  · right
    rw [Nat.succ_div_of_mod_eq_zero hlast, hlast, if_neg (Nat.succ_ne_zero _), Nat.add_zero]
  · left
    rw [Nat.succ_div_of_mod_ne_zero hlast]

end TableAccess.Number.BinaryFormat
