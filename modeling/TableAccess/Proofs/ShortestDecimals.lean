import Mathlib.Algebra.Order.Field.Power
import Mathlib.Data.Rat.Cast.Order
import Mathlib.Tactic.FieldSimp
import Mathlib.Tactic.Linarith
import Mathlib.Tactic.NormNum
import Mathlib.Tactic.Positivity
import Mathlib.Tactic.Ring
import TableAccess.Number.Shortest
import TableAccess.Proofs.Magnitudes

/-!
# Shortest decimals

The decimal that stands for a magnitude lies in the magnitude's rounding interval: seventeen digits
always suffice for one that does, and what is looked for on a coarser grid is only taken if it lies
there. Rounding intervals have no number in common, so different magnitudes have different decimals.
The intervals of fractions have no whole number in them, so the decimal of a fraction shows one.
-/
namespace TableAccess

namespace Binary64

theorem one_dvd_or_dvd (k : Nat) : one ∣ 2 ^ k ∨ 2 ^ k ∣ one := by
  unfold one
  generalize 1074 = n
  exact (Nat.le_total n k).imp (Nat.pow_dvd_pow 2) (Nat.pow_dvd_pow 2)

theorem index_ne_zero {x : Binary64} (h : ¬ one ∣ x.units) : x.index ≠ 0 := by
  intro hzero
  refine h ?_
  rw [units, hzero]
  exact Nat.dvd_zero _

end Binary64

namespace Number

namespace Decimal

/-- The decimal in half units, which are what rounding intervals are given in. -/
def halfUnits (d : Decimal) : ℚ := d.digits * ((10 : ℚ) ^ d.exponent * Interval.one)

theorem lt_pow_width (n : Nat) : n < 10 ^ width n :=
  (Nat.length_toDigits_le_iff (by decide) Nat.length_toDigits_pos).mp (Nat.le_refl _)

theorem pow_width_le {n : Nat} (h : 0 < n) : 10 ^ (width n - 1) ≤ n := by
  by_contra hlt
  by_cases hone : width n - 1 = 0
  · rw [hone] at hlt
    omega
  · have hlen : width n ≤ width n - 1 :=
      (Nat.length_toDigits_le_iff (by decide) (by omega)).mpr (Nat.lt_of_not_le hlt)
    omega

/-- Dropping zeros changes the digits and the exponent but not the number. -/
theorem halfUnits_dropZeros (fuel : Nat) (d : Decimal) :
    (dropZeros fuel d).halfUnits = d.halfUnits := by
  induction fuel generalizing d with
  | zero => rfl
  | succ fuel ih =>
    rw [dropZeros]
    split_ifs with h
    · have hdigits : (d.digits : ℚ) = 10 * (d.digits / 10 : Nat) := by
        have hmul : d.digits = 10 * (d.digits / 10) := by omega
        exact_mod_cast hmul
      have hpower : (10 : ℚ) ^ (d.exponent + 1) = 10 ^ d.exponent * 10 :=
        zpow_add_one₀ (by norm_num) _
      rw [ih, halfUnits, halfUnits, hdigits, hpower]
      ring
    · rfl

theorem le_exponent_dropZeros (fuel : Nat) (d : Decimal) :
    d.exponent ≤ (dropZeros fuel d).exponent := by
  induction fuel generalizing d with
  | zero => exact Int.le_refl _
  | succ fuel ih =>
    rw [dropZeros]
    split_ifs
    · exact Int.le_trans (Int.le_add_one (Int.le_refl d.exponent)) (ih _)
    · exact Int.le_refl _

end Decimal

/-- The power of ten of the leading digit is at most the number. -/
theorem pow_leadingPower_le {num den : Nat} (hnum : 0 < num) (hden : 0 < den) :
    (10 : ℚ) ^ leadingPower num den * den ≤ num := by
  unfold leadingPower
  split_ifs with hle
  · have hwidth : 10 ^ (Decimal.width (num / den) - 1) * den ≤ num :=
      (Nat.le_div_iff_mul_le hden).mp (Decimal.pow_width_le (Nat.div_pos hle hden))
    have hpos : 0 < Decimal.width (num / den) := Nat.length_toDigits_pos
    have hpower : ((Decimal.width (num / den) : Int) - 1) =
        ((Decimal.width (num / den) - 1 : Nat) : Int) := by omega
    rw [hpower, zpow_natCast]
    exact_mod_cast hwidth
  · have hbound : den < num * 10 ^ Decimal.width (den / num) := by
      rw [Nat.mul_comm]
      exact (Nat.div_lt_iff_lt_mul hnum).mp (Decimal.lt_pow_width _)
    have hscale : ∀ w : Nat, den ≤ num * 10 ^ w → (10 : ℚ) ^ (-(w : Int)) * den ≤ num := by
      intro w hw
      have hwQ : (den : ℚ) ≤ num * 10 ^ w := by exact_mod_cast hw
      rw [zpow_neg, zpow_natCast, inv_mul_le_iff₀ (by positivity)]
      linarith
    dsimp only
    split_ifs with hfirst
    · exact hscale _ hfirst
    · exact hscale _ hbound.le

namespace Interval

/-- The numbers of an interval, in half units. -/
def Contains (i : Interval) (q : ℚ) : Prop :=
  if i.closed then (i.low : ℚ) ≤ q ∧ q ≤ i.high else (i.low : ℚ) < q ∧ q < i.high

theorem Contains.le {i : Interval} {q : ℚ} (h : i.Contains q) : (i.low : ℚ) ≤ q ∧ q ≤ i.high := by
  unfold Contains at h
  split_ifs at h
  · exact h
  · exact ⟨h.1.le, h.2.le⟩

theorem contains_of_lt {i : Interval} {q : ℚ} (hlow : (i.low : ℚ) < q) (hhigh : q < i.high) :
    i.Contains q := by
  unfold Contains
  split_ifs
  · exact ⟨hlow.le, hhigh.le⟩
  · exact ⟨hlow, hhigh⟩

/-- Whether a decimal of a grid lies in an interval. -/
def inside (i : Interval) (k : Int) (d : Nat) : Bool :=
  let up := 10 ^ k.toNat * one
  let down := 10 ^ (-k).toNat
  if i.closed then i.low * down ≤ d * up && d * up ≤ i.high * down
  else i.low * down < d * up && d * up < i.high * down

/-- The decimal of a grid at or below the value of an interval. -/
def below (i : Interval) (k : Int) : Nat := i.value * 10 ^ (-k).toNat / (10 ^ k.toNat * one)

theorem one_eq : one = 2 * Binary64.one := by
  unfold one Binary64.one
  rw [show 1075 = 1074 + 1 from rfl]
  generalize 1074 = n
  exact Nat.pow_succ'

theorem one_pos : 0 < one := by
  rw [one_eq]
  exact Nat.mul_pos Nat.two_pos Binary64.one_pos

/-- A power of ten is a ratio of natural powers. -/
theorem zpow_ten (k : Int) : (10 : ℚ) ^ k * 10 ^ (-k).toNat = 10 ^ k.toNat := by
  rw [← zpow_natCast, ← zpow_natCast, ← zpow_add₀ (by norm_num)]
  congr 1
  omega

section Grid
variable (d n : Nat) (k : Int)

theorem halfUnits_mul :
    Decimal.halfUnits ⟨d, k⟩ * 10 ^ (-k).toNat = ((d * (10 ^ k.toNat * one) : Nat) : ℚ) := by
  rw [Decimal.halfUnits]
  push_cast
  rw [← zpow_ten k]
  ring

theorem le_halfUnits_iff :
    (n : ℚ) ≤ Decimal.halfUnits ⟨d, k⟩ ↔ n * 10 ^ (-k).toNat ≤ d * (10 ^ k.toNat * one) := by
  have hdown : (0 : ℚ) < 10 ^ (-k).toNat := by positivity
  rw [← mul_le_mul_iff_of_pos_right hdown, halfUnits_mul]
  norm_cast

theorem halfUnits_le_iff :
    Decimal.halfUnits ⟨d, k⟩ ≤ n ↔ d * (10 ^ k.toNat * one) ≤ n * 10 ^ (-k).toNat := by
  have hdown : (0 : ℚ) < 10 ^ (-k).toNat := by positivity
  rw [← mul_le_mul_iff_of_pos_right hdown, halfUnits_mul]
  norm_cast

theorem inside_iff (i : Interval) :
    i.inside k d = true ↔ i.Contains (Decimal.halfUnits ⟨d, k⟩) := by
  unfold inside Contains
  dsimp only
  split_ifs
  · rw [Bool.and_eq_true, decide_eq_true_eq, decide_eq_true_eq, le_halfUnits_iff, halfUnits_le_iff]
  · rw [Bool.and_eq_true, decide_eq_true_eq, decide_eq_true_eq, ← not_le, ← not_le,
      ← halfUnits_le_iff, ← le_halfUnits_iff, not_le, not_le]

end Grid

/-- What is looked for on a grid is one of the two neighbours of the value, in the interval. -/
theorem onGrid_cases (i : Interval) (tie : Tie) (k : Int) :
    (∃ d, i.onGrid tie k = some ⟨d, k⟩ ∧ i.inside k d = true) ∨
      i.onGrid tie k = none ∧ i.inside k (i.below k) = false ∧
        i.inside k (i.below k + 1) = false := by
  unfold onGrid
  extract_lets up down inside below above
  split
  next hbelow habove =>
    left
    split_ifs
    · exact ⟨_, rfl, hbelow⟩
    · exact ⟨_, rfl, habove⟩
    · exact ⟨_, rfl, hbelow⟩
    · exact ⟨_, rfl, habove⟩
  next hbelow habove => exact .inl ⟨_, rfl, hbelow⟩
  next hbelow habove => exact .inl ⟨_, rfl, habove⟩
  next hbelow habove => exact .inr ⟨rfl, hbelow, habove⟩

theorem exponent_of_onGrid {i : Interval} {tie : Tie} {k : Int} {d : Decimal}
    (h : i.onGrid tie k = some d) : d.exponent = k := by
  rcases i.onGrid_cases tie k with ⟨n, hn, -⟩ | ⟨hnone, -⟩
  · rw [hn] at h
    cases h
    rfl
  · rw [hnone] at h
    cases h

theorem contains_of_onGrid {i : Interval} {tie : Tie} {k : Int} {d : Decimal}
    (h : i.onGrid tie k = some d) : i.Contains d.halfUnits := by
  rcases i.onGrid_cases tie k with ⟨n, hn, hinside⟩ | ⟨hnone, -⟩
  · rw [hn] at h
    cases h
    exact (inside_iff n k i).mp hinside
  · rw [hnone] at h
    cases h

/-- The value lies between its two neighbours on a grid. -/
theorem halfUnits_below_le (i : Interval) (k : Int) :
    Decimal.halfUnits ⟨i.below k, k⟩ ≤ i.value :=
  (halfUnits_le_iff _ _ _).mpr (Nat.div_mul_le_self _ _)

theorem lt_halfUnits_succ_below (i : Interval) (k : Int) :
    (i.value : ℚ) < Decimal.halfUnits ⟨i.below k + 1, k⟩ := by
  have hup : 0 < 10 ^ k.toNat * one := Nat.mul_pos (Nat.pow_pos (by decide)) one_pos
  rw [← not_le, halfUnits_le_iff, not_le, Nat.add_mul, Nat.one_mul]
  exact Nat.lt_div_mul_add hup

theorem halfUnits_succ (d : Nat) (k : Int) :
    Decimal.halfUnits ⟨d + 1, k⟩ = Decimal.halfUnits ⟨d, k⟩ + 10 ^ k * one := by
  unfold Decimal.halfUnits
  push_cast
  ring

/-- A grid with one neighbour of the value in the interval has a decimal there. -/
theorem onGrid_ne_none {i : Interval} {k : Int} (tie : Tie)
    (h : i.Contains (Decimal.halfUnits ⟨i.below k, k⟩) ∨
      i.Contains (Decimal.halfUnits ⟨i.below k + 1, k⟩)) : i.onGrid tie k ≠ none := by
  rw [← inside_iff, ← inside_iff] at h
  rcases i.onGrid_cases tie k with ⟨d, hd, -⟩ | ⟨-, hbelow, habove⟩
  · simp [hd]
  · simp [hbelow, habove] at h

section Around
variable {index : Nat}

theorem around_value (index : Nat) : (around index).value = 2 * BinaryFormat.double.units index :=
  rfl

theorem around_high (index : Nat) :
    (around index).high = (around index).value + BinaryFormat.double.ulp index := by
  have hsucc := BinaryFormat.double.units_succ index
  change BinaryFormat.double.units index + BinaryFormat.double.units (index + 1) =
    2 * BinaryFormat.double.units index + BinaryFormat.double.ulp index
  omega

theorem around_low (index : Nat) :
    (around (index + 1)).low + BinaryFormat.double.ulp index = (around (index + 1)).value := by
  have hsucc := BinaryFormat.double.units_succ index
  change BinaryFormat.double.units index + BinaryFormat.double.units (index + 1)
    + BinaryFormat.double.ulp index = 2 * BinaryFormat.double.units (index + 1)
  omega

/-- A rounding interval lies below those of larger magnitudes. The end that two neighbours share
belongs to only one of them. -/
theorem lt_of_contains {i j : Nat} {q r : ℚ} (h : i < j) (hi : (around i).Contains q)
    (hj : (around j).Contains r) : q < r := by
  obtain ⟨k, rfl⟩ : ∃ k, j = k + 1 := ⟨j - 1, by omega⟩
  have hmono := BinaryFormat.double.strictMono_units
  obtain ⟨-, hq⟩ := hi.le
  obtain ⟨hr, -⟩ := hj.le
  rcases Nat.lt_or_eq_of_le (Nat.le_of_lt_succ h) with hik | rfl
  · have hends : (around i).high < (around (k + 1)).low :=
      Nat.add_lt_add (hmono hik) (hmono (Nat.succ_lt_succ hik))
    have hendsQ : ((around i).high : ℚ) < (around (k + 1)).low := by exact_mod_cast hends
    linarith
  · have hends : (around i).high = (around (i + 1)).low := rfl
    rw [hends] at hq
    have hopen : (around i).closed = false ∨ (around (i + 1)).closed = false := by
      simp only [around, beq_eq_false_iff_ne]
      omega
    rcases hopen with hopen | hopen
    · simp only [Contains, hopen, Bool.false_eq_true, if_false, hends] at hi
      linarith
    · simp only [Contains, hopen, Bool.false_eq_true, if_false] at hj
      linarith

/-- Rounding intervals have no number in common. -/
theorem index_eq_of_contains {i j : Nat} {q : ℚ} (hi : (around i).Contains q)
    (hj : (around j).Contains q) : i = j := by
  rcases lt_trichotomy i j with h | h | h
  · exact absurd (lt_of_contains h hi hj) (lt_irrefl q)
  · exact h
  · exact absurd (lt_of_contains h hj hi) (lt_irrefl q)

/-- The steps around a magnitude are no larger than that above it, and the magnitude is below
`2 ^ 53` of them. A step that is smaller below stands at `2 ^ 52`. -/
theorem steps_around (index : Nat) : ∃ below, (around (index + 1)).low + below =
      (around (index + 1)).value ∧ 0 < below ∧
      below ≤ BinaryFormat.double.ulp (index + 1) ∧
      ((around (index + 1)).value < 2 ^ 54 * below ∨
        (around (index + 1)).value = 2 ^ 53 * BinaryFormat.double.ulp (index + 1)) := by
  have hulp := BinaryFormat.double.ulp_pos index
  have hsignificand : BinaryFormat.double.significand (index + 1) < 2 ^ 53 :=
    BinaryFormat.double.significand_lt (index + 1)
  refine ⟨BinaryFormat.double.ulp index, around_low index, hulp,
    BinaryFormat.double.ulp_mono (Nat.le_succ index), ?_⟩
  rw [around_value, BinaryFormat.units_eq]
  rcases BinaryFormat.ulp_succ (f := BinaryFormat.double) index with hsame | hpower
  · left
    rw [hsame, ← Nat.mul_assoc]
    exact Nat.mul_lt_mul_of_pos_right (by omega) hulp
  · right
    rw [hpower, ← Nat.mul_assoc]
    rfl

/-- With seventeen digits one of the neighbours of a magnitude lies in its interval. -/
theorem onGrid_leadingPower_ne_none (tie : Tie) (index : Nat) :
    (around (index + 1)).onGrid tie (leadingPower (around (index + 1)).value one - 16) ≠ none := by
  obtain ⟨below, hlow, hpos, hle, hvalue⟩ := steps_around index
  have hhigh := around_high (index + 1)
  generalize around (index + 1) = i at hlow hvalue hhigh ⊢
  generalize BinaryFormat.double.ulp (index + 1) = above at hle hvalue hhigh
  have hleading : (10 : ℚ) ^ leadingPower i.value one * one ≤ i.value :=
    pow_leadingPower_le (by omega) one_pos
  generalize hk : leadingPower i.value one - 16 = k
  rw [show leadingPower i.value one = k + 16 by omega, zpow_add₀ (by norm_num)] at hleading
  have hstep : 10 ^ k * one * 10 ^ 16 ≤ (i.value : ℚ) := by linarith
  have hfloor := halfUnits_below_le i k
  have hceil := lt_halfUnits_succ_below i k
  have hsucc := halfUnits_succ (i.below k) k
  have hlowQ : (i.low : ℚ) + below = i.value := by exact_mod_cast hlow
  have hhighQ : (i.high : ℚ) = i.value + above := by exact_mod_cast hhigh
  have hposQ : (0 : ℚ) < below := by exact_mod_cast hpos
  have hleQ : (below : ℚ) ≤ above := by exact_mod_cast hle
  apply onGrid_ne_none
  rcases hvalue with hvalue | hvalue
  · have hvalueQ : (i.value : ℚ) < 2 ^ 54 * below := by exact_mod_cast hvalue
    by_cases hnear : (i.value : ℚ) - below < Decimal.halfUnits ⟨i.below k, k⟩
    · exact .inl (contains_of_lt (by linarith) (by linarith))
    · exact .inr (contains_of_lt (by linarith) (by linarith))
  · have hvalueQ : (i.value : ℚ) = 2 ^ 53 * above := by exact_mod_cast hvalue
    exact .inr (contains_of_lt (by linarith) (by linarith))

/-- Only a whole magnitude has a whole number in its interval: the interval reaches half a step
down and up, and a step that is a fraction divides one. -/
theorem dvd_units_of_contains {index n : Nat} (h : (around (index + 1)).Contains (n * one)) :
    Binary64.one ∣ BinaryFormat.double.units (index + 1) := by
  have hlow := around_low index
  have hhigh := around_high (index + 1)
  have hulp := BinaryFormat.double.ulp_mono (Nat.le_succ index)
  have hpos := BinaryFormat.double.ulp_pos (index + 1)
  obtain ⟨hleast, hmost⟩ := h.le
  have hleast' : (around (index + 1)).low ≤ n * one := by exact_mod_cast hleast
  have hmost' : n * one ≤ (around (index + 1)).high := by exact_mod_cast hmost
  rw [around_value, BinaryFormat.units_eq] at hlow hhigh
  rw [BinaryFormat.units_eq]
  generalize BinaryFormat.double.significand (index + 1) = m at hlow hhigh ⊢
  rcases Binary64.one_dvd_or_dvd ((index + 1) / 2 ^ BinaryFormat.double.fractionBits - 1)
    with hdvd | ⟨c, hc⟩
  · exact hdvd.mul_left m
  · have hulps : Binary64.one = BinaryFormat.double.ulp (index + 1) * c := hc
    generalize BinaryFormat.double.ulp (index + 1) = u at hlow hhigh hulp hpos hulps ⊢
    have hone : n * one = 2 * (n * c) * u := by
      rw [one_eq, hulps]
      ring
    have hbelow : 2 * m * u ≤ (2 * (n * c) + 1) * u := by
      rw [Nat.add_mul, ← hone, Nat.mul_assoc]
      omega
    have habove : 2 * (n * c) * u ≤ (2 * m + 1) * u := by
      rw [← hone, Nat.add_mul, Nat.mul_assoc]
      omega
    have hm : m = n * c := by
      have hbelow' := Nat.le_of_mul_le_mul_right hbelow hpos
      have habove' := Nat.le_of_mul_le_mul_right habove hpos
      omega
    refine ⟨n, ?_⟩
    rw [hm, hulps]
    ring

end Around

end Interval

variable (tie : Tie) (x : Binary64)

/-- The shortest decimal is one of a grid with seventeen digits at most, without its last zeros. -/
theorem exists_onGrid (h : x.index ≠ 0) :
    ∃ n : Nat, n < 17 ∧ ∃ d, (Interval.around x.index).onGrid tie
        (leadingPower (Interval.around x.index).value Interval.one - (n : Int)) = some d ∧
      shortest tie x = d.dropZeros 17 := by
  obtain ⟨index, hindex⟩ := Nat.exists_eq_succ_of_ne_zero h
  rw [shortest, if_neg h, hindex]
  dsimp only
  generalize hfound : (List.range 17).findSome? _ = found
  cases found with
  | none =>
    have hnone := List.findSome?_eq_none_iff.mp hfound 16 (by decide)
    exact absurd hnone (Interval.onGrid_leadingPower_ne_none tie index)
  | some d =>
    obtain ⟨n, hn, hd⟩ := List.exists_of_findSome?_eq_some hfound
    exact ⟨n, List.mem_range.mp hn, d, hd, rfl⟩

/-- The shortest decimal of a number lies in its rounding interval. -/
theorem contains_shortest (h : x.index ≠ 0) :
    (Interval.around x.index).Contains (shortest tie x).halfUnits := by
  obtain ⟨n, -, d, hd, hshortest⟩ := exists_onGrid tie x h
  rw [hshortest, Decimal.halfUnits_dropZeros]
  exact Interval.contains_of_onGrid hd

variable {x}

/-- Different magnitudes have different shortest decimals. -/
theorem index_eq_of_shortest_eq {y : Binary64} (hx : x.index ≠ 0) (hy : y.index ≠ 0)
    (h : shortest tie x = shortest tie y) : x.index = y.index := by
  have hcontains := contains_shortest tie x hx
  rw [h] at hcontains
  exact Interval.index_eq_of_contains hcontains (contains_shortest tie y hy)

/-- The shortest decimal of a fraction has fraction digits. -/
theorem exponent_shortest_neg (h : ¬ Binary64.one ∣ x.units) : (shortest tie x).exponent < 0 := by
  have hindex := Binary64.index_ne_zero h
  have hcontains := contains_shortest tie x hindex
  by_contra hwhole
  obtain ⟨e, he⟩ := Int.eq_ofNat_of_zero_le (Int.not_lt.mp hwhole)
  have hnatural : (shortest tie x).halfUnits =
      ((shortest tie x).digits * 10 ^ e : Nat) * Interval.one := by
    rw [Decimal.halfUnits, he, zpow_natCast]
    push_cast
    ring
  obtain ⟨index, hsucc⟩ := Nat.exists_eq_succ_of_ne_zero hindex
  rw [hnatural, hsucc] at hcontains
  rw [Binary64.units, hsucc] at h
  exact h (Interval.dvd_units_of_contains hcontains)

end Number

end TableAccess
