import TableAccess.Proofs.PlainNumbers

/-!
# Nearest numbers

Rounding a ratio gives the magnitude in whose interval the ratio lies. So a decimal that lies in
the interval of a number is read as the number, and the text of a large number is that of a whole
number that rounds to the same.
-/
namespace TableAccess

namespace Number

/-- The rounded quotient is at most a half away, and it is even where it is exactly a half away. -/
theorem roundHalfEven_spec (num : Nat) {den : Nat} (hden : 0 < den) :
    2 * num ≤ 2 * (roundHalfEven num den * den) + den ∧
      2 * (roundHalfEven num den * den) ≤ 2 * num + den ∧
      ((2 * num = 2 * (roundHalfEven num den * den) + den ∨
        2 * (roundHalfEven num den * den) = 2 * num + den) → roundHalfEven num den % 2 = 0) := by
  have hnum := Nat.div_add_mod' num den
  have hmod := Nat.mod_lt num hden
  unfold roundHalfEven
  generalize num / den = q at hnum
  generalize num % den = r at hnum hmod
  dsimp only
  split_ifs with hbelow habove
  · omega
  · rw [Nat.add_mul, Nat.one_mul]
    omega
  · rcases Nat.mod_two_eq_zero_or_one q with heven | hodd
    · rw [heven, Nat.add_zero]
      omega
    · rw [hodd, Nat.add_mul, Nat.one_mul]
      omega

namespace BinaryFormat
variable (f : BinaryFormat) {num den e m : Nat}

/-- The numerator of a ratio in units. -/
def scaled (num : Nat) : Nat := num * 2 ^ f.unitBits

/-- The power of two that a ratio is rounded to multiples of. -/
def shift (num den : Nat) : Nat := Nat.log2 (f.scaled num / den) - f.fractionBits

/-- The denominator of a ratio in steps of that power. -/
def grid (num den : Nat) : Nat := den * 2 ^ f.shift num den

/-- The rounded multiple. -/
def multiple (num den : Nat) : Nat := roundHalfEven (f.scaled num) (f.grid num den)

/-- The index that a ratio is rounded to where there is no largest magnitude. -/
def nearest (num den : Nat) : Nat := f.shift num den * 2 ^ f.fractionBits + f.multiple num den

theorem index_eq (num den : Nat) : f.index num den = min (f.nearest num den) f.infinityIndex := rfl

theorem grid_pos (num : Nat) (hden : 0 < den) : 0 < f.grid num den :=
  Nat.mul_pos hden (Nat.two_pow_pos _)

theorem div_mod_of_lt {b k r : Nat} (h : r < b) : (k * b + r) / b = k ∧ (k * b + r) % b = r := by
  have hpos : 0 < b := Nat.zero_lt_of_lt h
  rw [Nat.mul_comm, Nat.mul_add_div hpos, Nat.mul_add_mod, Nat.div_eq_of_lt h, Nat.mod_eq_of_lt h]
  exact ⟨Nat.add_zero k, rfl⟩

/-- A multiple of a power of two is a magnitude if its factor has no more bits than fit, and no
fewer unless the power is one. -/
theorem units_multiple (hm : m ≤ 2 * 2 ^ f.fractionBits) (he : e = 0 ∨ 2 ^ f.fractionBits ≤ m) :
    f.units (e * 2 ^ f.fractionBits + m) = m * 2 ^ e := by
  have hpos := Nat.two_pow_pos f.fractionBits
  unfold units
  generalize 2 ^ f.fractionBits = b at hm he hpos
  by_cases hsmall : m < b
  · obtain rfl : e = 0 := he.resolve_right (Nat.not_le.mpr hsmall)
    obtain ⟨hdiv, hmod⟩ := div_mod_of_lt (k := 0) hsmall
    simp only [hdiv, hmod, if_true, Nat.pow_zero, Nat.mul_one]
  · by_cases hfull : m = 2 * b
    · obtain ⟨hdiv, hmod⟩ := div_mod_of_lt (k := e + 2) hpos
      have hsum : e * b + m = (e + 2) * b + 0 := by
        rw [hfull, Nat.add_mul, Nat.add_zero]
      rw [hsum, hdiv, hmod, hfull]
      simp only [Nat.add_zero, Nat.add_one_sub_one, reduceCtorEq, if_false]
      rw [Nat.pow_succ', ← Nat.mul_assoc, Nat.mul_comm b]
    · obtain ⟨r, rfl⟩ : ∃ r, m = b + r := Nat.exists_eq_add_of_le (Nat.le_of_not_lt hsmall)
      obtain ⟨hdiv, hmod⟩ := div_mod_of_lt (b := b) (k := e + 1) (r := r) (by omega)
      have hsum : e * b + (b + r) = (e + 1) * b + r := by
        rw [Nat.add_mul, Nat.one_mul, Nat.add_assoc]
      rw [hsum, hdiv, hmod]
      simp

/-- The steps at an index are no smaller than the exponent says. -/
theorem le_ulp {i : Nat} (h : e = 0 ∨ (e + 1) * 2 ^ f.fractionBits ≤ i) : 2 ^ e ≤ f.ulp i := by
  rcases h with rfl | h
  · exact f.ulp_pos i
  · have hexponent : e + 1 ≤ i / 2 ^ f.fractionBits :=
      (Nat.le_div_iff_mul_le (Nat.two_pow_pos _)).mpr h
    exact Nat.pow_le_pow_right (by decide) (by omega)

theorem grid_le_ulp {i : Nat} (num den : Nat)
    (h : f.shift num den = 0 ∨ (f.shift num den + 1) * 2 ^ f.fractionBits ≤ i) :
    f.grid num den ≤ f.ulp i * den := by
  rw [grid, Nat.mul_comm]
  exact Nat.mul_le_mul_right den (f.le_ulp h)

/-- The multiple has its bits in range, and it is not above the ratio where it has the fewest. -/
theorem multiple_bounds (num : Nat) (hden : 0 < den) :
    f.multiple num den ≤ 2 * 2 ^ f.fractionBits ∧
      (f.shift num den = 0 ∨ 2 ^ f.fractionBits ≤ f.multiple num den ∧
        2 ^ f.fractionBits * f.grid num den ≤ f.scaled num) := by
  have hle := le_roundHalfEven (f.scaled num) (f.grid num den)
  have hround := roundHalfEven_le (f.scaled num) (f.grid num den)
  have hquotient : f.scaled num / f.grid num den =
      f.scaled num / den / 2 ^ f.shift num den := (Nat.div_div_eq_div_mul _ _ _).symm
  have hlt : f.scaled num / f.grid num den < 2 * 2 ^ f.fractionBits := by
    rw [hquotient, Nat.div_lt_iff_lt_mul (Nat.two_pow_pos _), ← Nat.pow_succ', ← Nat.pow_add]
    refine Nat.lt_of_lt_of_le Nat.lt_log2_self (Nat.pow_le_pow_right (by decide) ?_)
    rw [shift]
    omega
  refine ⟨Nat.le_trans hround hlt, ?_⟩
  by_cases hzero : f.shift num den = 0
  · exact .inl hzero
  · right
    have hlog : f.fractionBits + f.shift num den = Nat.log2 (f.scaled num / den) := by
      rw [shift] at hzero ⊢
      omega
    have hfew : 2 ^ f.fractionBits ≤ f.scaled num / f.grid num den := by
      rw [hquotient, Nat.le_div_iff_mul_le (Nat.two_pow_pos _), ← Nat.pow_add, hlog]
      refine Nat.log2_self_le fun hnone => ?_
      rw [hnone, Nat.log2_zero] at hlog
      omega
    exact ⟨Nat.le_trans hfew hle, (Nat.le_div_iff_mul_le (f.grid_pos num hden)).mp hfew⟩

end BinaryFormat

namespace Interval
open BinaryFormat

/-- A ratio lies in an interval if it lies between the ends as whole numbers of its parts. -/
theorem contains_div {i : Interval} {a d : Nat} (hd : 0 < d) :
    i.Contains ((a : ℚ) / d) ↔
      if i.closed then i.low * d ≤ a ∧ a ≤ i.high * d else i.low * d < a ∧ a < i.high * d := by
  have hdQ : (0 : ℚ) < d := by exact_mod_cast hd
  unfold Contains
  split_ifs
  · rw [le_div_iff₀ hdQ, div_le_iff₀ hdQ]
    norm_cast
  · rw [lt_div_iff₀ hdQ, div_lt_iff₀ hdQ]
    norm_cast

section Nearest
variable (num : Nat) {den : Nat} (hden : 0 < den)
include hden

theorem units_nearest_mul :
    double.units (double.nearest num den) * den =
      double.multiple num den * double.grid num den := by
  obtain ⟨hmost, hfew⟩ := double.multiple_bounds num hden
  rw [nearest, double.units_multiple hmost (hfew.imp_right And.left), Nat.mul_assoc,
    Nat.mul_comm _ den, grid]

/-- A ratio is at most half a step above the magnitude that it is rounded to. -/
theorem le_high_mul :
    2 * double.scaled num ≤ (around (double.nearest num den)).high * den ∧
      (2 * double.scaled num = (around (double.nearest num den)).high * den →
        double.multiple num den % 2 = 0) := by
  obtain ⟨hround, -, heven⟩ :
      2 * double.scaled num ≤ 2 * (double.multiple num den * double.grid num den) +
        double.grid num den ∧ _ ∧ _ :=
    roundHalfEven_spec (double.scaled num) (double.grid_pos num hden)
  obtain ⟨-, hfew⟩ := double.multiple_bounds num hden
  have hstep : double.grid num den ≤ double.ulp (double.nearest num den) * den := by
    refine double.grid_le_ulp num den (hfew.imp_right fun h => ?_)
    rw [nearest, Nat.add_mul, Nat.one_mul]
    exact Nat.add_le_add_left h.1 _
  have hhigh : (around (double.nearest num den)).high * den =
      2 * (double.multiple num den * double.grid num den) +
        double.ulp (double.nearest num den) * den := by
    rw [around_high, around_value, Nat.add_mul, Nat.mul_assoc, units_nearest_mul num hden]
  refine ⟨by omega, fun heq => heven (.inl ?_)⟩
  change _ = 2 * (double.multiple num den * double.grid num den) + _
  omega

/-- A ratio is at most half a step below the magnitude that it is rounded to. -/
theorem low_mul_le :
    (around (double.nearest num den)).low * den ≤ 2 * double.scaled num ∧
      ((around (double.nearest num den)).low * den = 2 * double.scaled num →
        double.multiple num den % 2 = 0) := by
  obtain ⟨-, hround, heven⟩ :
      _ ∧ 2 * (double.multiple num den * double.grid num den) ≤
        2 * double.scaled num + double.grid num den ∧ _ :=
    roundHalfEven_spec (double.scaled num) (double.grid_pos num hden)
  obtain ⟨-, hfew⟩ := double.multiple_bounds num hden
  have hunits := units_nearest_mul num hden
  cases hindex : double.nearest num den with
  | zero =>
    have hmultiple : double.multiple num den = 0 := by
      rw [nearest] at hindex
      omega
    have hlow : (around 0).low = 0 := rfl
    rw [hlow, Nat.zero_mul, hmultiple]
    exact ⟨Nat.zero_le _, fun _ => rfl⟩
  | succ k =>
    have hlow : (around (k + 1)).low * den + double.ulp k * den =
        2 * (double.multiple num den * double.grid num den) := by
      rw [← Nat.add_mul, around_low, around_value, ← hindex, Nat.mul_assoc, hunits]
    by_cases hedge : double.shift num den = 0 ∨ 2 ^ double.fractionBits < double.multiple num den
    · have hstep : double.grid num den ≤ double.ulp k * den := by
        refine double.grid_le_ulp num den (hedge.imp_right fun h => ?_)
        rw [nearest] at hindex
        rw [Nat.add_mul]
        omega
      refine ⟨by omega, fun heq => heven (.inr ?_)⟩
      change 2 * (double.multiple num den * double.grid num den) = _
      omega
    · -- The step below a power of two is half as large, but there the ratio is not below it.
      obtain ⟨hshift, hmost⟩ := not_or.mp hedge
      obtain ⟨hleast, hfew⟩ := hfew.resolve_left hshift
      have hexact : double.multiple num den * double.grid num den ≤ double.scaled num := by
        rwa [Nat.le_antisymm (Nat.le_of_not_lt hmost) hleast]
      have hpos : 0 < double.ulp k * den := Nat.mul_pos (double.ulp_pos k) hden
      constructor <;> omega

/-- A ratio lies in the interval of the magnitude that it is rounded to. -/
theorem contains_nearest :
    (around (double.nearest num den)).Contains ((2 * double.scaled num : Nat) / den) := by
  obtain ⟨hlow, hlowEven⟩ := low_mul_le num hden
  obtain ⟨hhigh, hhighEven⟩ := le_high_mul num hden
  have hparity : double.nearest num den % 2 = double.multiple num den % 2 := by
    have hbits : 2 ^ double.fractionBits % 2 = 0 := by decide
    rw [nearest, Nat.add_mod, Nat.mul_mod, hbits]
    simp
  rw [contains_div hden]
  split_ifs with hclosed
  · exact ⟨hlow, hhigh⟩
  · have hodd : double.multiple num den % 2 ≠ 0 := by
      rw [← hparity]
      simpa [around] using hclosed
    exact ⟨Nat.lt_of_le_of_ne hlow (mt hlowEven hodd), Nat.lt_of_le_of_ne hhigh (mt hhighEven hodd)⟩

end Nearest

/-- What lies in the interval of a magnitude is rounded to it. -/
theorem index_of_contains {i num den : Nat} (hden : 0 < den)
    (h : (around i).Contains ((2 * double.scaled num : Nat) / den)) :
    double.index num den = min i double.infinityIndex := by
  rw [index_eq, index_eq_of_contains (contains_nearest num hden) h]

end Interval

theorem le_leadingPower {num den k : Nat} (hden : 0 < den) (h : 10 ^ k * den ≤ num) :
    (k : Int) ≤ leadingPower num den := by
  have hone : den ≤ num :=
    Nat.le_trans (Nat.le_mul_of_pos_left den (Nat.pow_pos (by decide))) h
  have hquotient : 10 ^ k ≤ num / den := (Nat.le_div_iff_mul_le hden).mpr h
  have hwidth : k < Decimal.width (num / den) :=
    (Nat.pow_lt_pow_iff_right (by decide)).mp
      (Nat.lt_of_le_of_lt hquotient (Decimal.lt_pow_width _))
  rw [leadingPower, if_pos hone]
  omega

/-- Zeros behind the digits of a number multiply it. -/
theorem toDigits_mul_pow {n : Nat} (hn : 0 < n) (e : Nat) :
    Nat.toDigits 10 (n * 10 ^ e) = Nat.toDigits 10 n ++ List.replicate e '0' := by
  induction e with
  | zero => simp
  | succ e ih =>
    have hpos : 0 < n * 10 ^ e := Nat.mul_pos hn (Nat.pow_pos (by decide))
    have happend := Nat.toDigits_append_toDigits (by decide) hpos (by decide : 0 < 10)
    have hvalue : n * 10 ^ (e + 1) = 10 * (n * 10 ^ e) + 0 := by
      rw [Nat.pow_succ, Nat.add_zero, ← Nat.mul_assoc, Nat.mul_comm]
    rw [hvalue, ← happend, ih, List.replicate_succ', List.append_assoc]
    rfl

/-- A decimal without fraction digits is written with its zeros. -/
theorem Layout.placed_of_natCast {exponent : Int} {e : Nat} (digits : List Char)
    (h : exponent = e) : placed false digits exponent = digits ++ List.replicate e '0' := by
  rw [h, placed]
  simp

variable {x : Binary64}

theorem index_ne_zero_of_le (h : 2 ^ 63 * Binary64.one ≤ x.units) : x.index ≠ 0 := by
  intro hzero
  have hunits : x.units = 0 := by
    rw [Binary64.units, hzero]
    rfl
  have hpos : 0 < 2 ^ 63 * Binary64.one := Nat.mul_pos (by decide) Binary64.one_pos
  omega

/-- The shortest decimal of a large number has no fraction digits: seventeen digits do not reach
the place of ones. -/
theorem exists_exponent_shortest (tie : Tie) (h : 2 ^ 63 * Binary64.one ≤ x.units) :
    ∃ e : Nat, (shortest tie x).exponent = e := by
  obtain ⟨n, hn, d, hd, hshortest⟩ := exists_onGrid tie x (index_ne_zero_of_le h)
  have hvalue : 10 ^ 18 * Interval.one ≤ (Interval.around x.index).value := by
    rw [Interval.around_value, Interval.one_eq, Nat.mul_left_comm]
    refine Nat.mul_le_mul_left 2 (Nat.le_trans (Nat.mul_le_mul_right _ ?_) h)
    decide
  have hleading := le_leadingPower Interval.one_pos hvalue
  have hexponent := Interval.exponent_of_onGrid hd
  have hzeros := d.le_exponent_dropZeros 17
  rw [hshortest]
  exact Int.eq_ofNat_of_zero_le (by omega)

/-- The shortest decimal of a large number is a whole number in the interval of the number. -/
theorem exists_whole_shortest (tie : Tie) (h : 2 ^ 63 * Binary64.one ≤ x.units) :
    ∃ e : Nat, (shortest tie x).exponent = e ∧ 0 < (shortest tie x).digits ∧
      BinaryFormat.double.index ((shortest tie x).digits * 10 ^ e) 1 =
        min x.index BinaryFormat.double.infinityIndex := by
  obtain ⟨e, he⟩ := exists_exponent_shortest tie h
  have hindex := index_ne_zero_of_le h
  have hcontains := contains_shortest tie x hindex
  have hscaled : (shortest tie x).halfUnits =
      (2 * BinaryFormat.double.scaled ((shortest tie x).digits * 10 ^ e) : Nat) / (1 : Nat) := by
    rw [Decimal.halfUnits, he, zpow_natCast, BinaryFormat.scaled, Binary64.two_pow_unitBits,
      Interval.one_eq]
    push_cast
    ring
  rw [hscaled] at hcontains
  have hread := Interval.index_of_contains Nat.one_pos hcontains
  refine ⟨e, he, Nat.pos_of_ne_zero fun hzero => ?_, hread⟩
  have hnone : BinaryFormat.double.index 0 1 = 0 := by decide +kernel
  have hinfinity : BinaryFormat.double.infinityIndex = 2047 * 2 ^ 52 := rfl
  rw [hzero, Nat.zero_mul, hnone] at hread
  omega

end Number

namespace Binary64
open Number

theorem ofList_toDigits (n : Nat) : String.ofList (Nat.toDigits 10 n) = toString (n : Int) := by
  rw [← String.toList_inj, String.toList_ofList, Text.toList_toString_int,
    if_neg (Int.not_lt.mpr (Int.natCast_nonneg n))]
  rfl

theorem toText_of_whole {x : Binary64} {e : Nat} (hx : x.isFinite = true)
    (hpositive : x.negative = false) (he : (shortest .away x).exponent = e)
    (hdigits : 0 < (shortest .away x).digits) :
    x.toText = toString (((shortest .away x).digits * 10 ^ e : Nat) : Int) := by
  have hunsigned : ∀ cs, (if x.negative then ['-'] else []) ++ cs = cs := by
    intro cs
    rw [hpositive]
    rfl
  rw [toText_of_finite hx, hunsigned, Layout.placed_of_natCast _ he, ← toDigits_mul_pow hdigits,
    ofList_toDigits]

/-- A large integer is written as an integer that rounds to the same number. -/
theorem exists_toText_ofInt {n : Int} (h : 2 ^ 63 ≤ n) (hn : n < 2 ^ 64) :
    ∃ m : Int, (ofInt n).toText = toString m ∧ ofInt m = ofInt n := by
  have hfinite : (ofInt n).isFinite = true := isFinite_ofInt (by omega)
  have hlarge : 2 ^ 63 * one ≤ (ofInt n).units := by
    rw [ofInt]
    exact le_units_ofRatio_one (by omega) (by decide)
  have hpositive : (ofInt n).negative = false := decide_eq_false (by omega)
  obtain ⟨e, he, hdigits, hread⟩ := exists_whole_shortest .away hlarge
  refine ⟨_, toText_of_whole hfinite hpositive he hdigits, ?_⟩
  generalize (shortest .away (ofInt n)).digits * 10 ^ e = m at hread
  have hinfinity : BinaryFormat.double.index n.natAbs 1 ≤ BinaryFormat.double.infinityIndex :=
    Nat.min_le_right _ _
  have hindex : BinaryFormat.double.index m 1 = BinaryFormat.double.index n.natAbs 1 := by
    rw [hread, ofInt, index_ofRatio, Nat.min_eq_left hinfinity]
  rw [ofInt, ofInt, ofRatio, ofRatio, Int.natAbs_natCast, hindex]
  simp only [Int.not_lt.mpr (Int.natCast_nonneg m), show ¬ n < 0 by omega]

end Binary64

end TableAccess
