import TableAccess.Fetch.Json
import TableAccess.Proofs.NearestNumbers
import TableAccess.Proofs.NumberKeys
import TableAccess.Proofs.NumeralTexts

/-!
# What is read as a limit

A limit is a number from zero on below `2 ^ 63`, or the text of one between blanks. The text of an
integer stands for its integer, and any other numeral for the floating-point number nearest to it.
Where the nearest number is a limit is said of the numeral itself: rounding keeps the order, so all
that matters is what is rounded to zero and what is rounded to `2 ^ 63`.
-/
namespace TableAccess

namespace FetchParams

/-- A number that is rounded to a limit: at most half the smallest number below zero, and more than
half the last step below `2 ^ 63`. -/
def IsNearLimit (q : ℚ) : Prop := -(1 / 2 ^ 1075) ≤ q ∧ q < 2 ^ 63 - 512

/-- Data that stand for a limit. -/
inductive IsLimit : Json → Prop
  | int {i : Json.Integer} (h : 0 ≤ i.val) (hi : i.val < 2 ^ 63) : IsLimit (.int i)
  | float {x : Json.FiniteFloat} (h : 0 ≤ x.val.toRat) (hlt : x.val.toRat < 2 ^ 63) :
    IsLimit (.float x)
  | integer {s : String} {i : Int} (hs : Text.Denotes (Text.trim s) i) (h : 0 ≤ i)
      (hi : i < 2 ^ 63) : IsLimit (.string s)
  | numeral {s : String} {q : ℚ} (hs : Text.IsNumeralOf (Text.trim s) q)
      (hno : ∀ i, ¬ Text.Denotes (Text.trim s) i) (h : IsNearLimit q) : IsLimit (.string s)

end FetchParams

namespace Number.Interval
open BinaryFormat
variable {num den i : Nat}

section EvenMagnitude
variable (hclosed : (around i).closed = true)
include hclosed

theorem contains_ends :
    (around i).Contains (around i).low ∧ (around i).Contains (around i).high := by
  have hle : (around i).low ≤ (around i).high :=
    Nat.add_le_add (double.strictMono_units.monotone (Nat.sub_le i 1))
      (double.strictMono_units.monotone (Nat.le_succ i))
  have hleQ : ((around i).low : ℚ) ≤ (around i).high := by exact_mod_cast hle
  simp only [Contains, hclosed, if_true]
  exact ⟨⟨le_refl _, hleQ⟩, hleQ, le_refl _⟩

variable (num) (hden : 0 < den)
include hden

/-- A ratio is rounded to less than an even magnitude if it lies below the interval of the
magnitude. -/
theorem nearest_lt_iff :
    double.nearest num den < i ↔ ((2 * double.scaled num : Nat) : ℚ) / den < (around i).low := by
  have hnearest := contains_nearest num hden
  constructor
  · intro h
    exact lt_of_contains h hnearest (contains_ends hclosed).1
  · intro h
    by_contra hge
    rcases Nat.lt_or_eq_of_le (Nat.le_of_not_lt hge) with hlt | heq
    · exact lt_asymm h (lt_of_contains hlt (contains_ends hclosed).1 hnearest)
    · exact absurd (heq ▸ hnearest).le.1 (not_le.mpr h)

/-- A ratio is rounded to no more than an even magnitude if it does not lie above the interval of
the magnitude. -/
theorem nearest_le_iff :
    double.nearest num den ≤ i ↔ ((2 * double.scaled num : Nat) : ℚ) / den ≤ (around i).high := by
  have hnearest := contains_nearest num hden
  constructor
  · intro h
    rcases Nat.lt_or_eq_of_le h with hlt | heq
    · exact (lt_of_contains hlt hnearest (contains_ends hclosed).2).le
    · exact (heq ▸ hnearest).le.2
  · intro h
    by_contra hgt
    have hlt := lt_of_contains (Nat.lt_of_not_le hgt) (contains_ends hclosed).2 hnearest
    exact absurd h (not_le.mpr hlt)

end EvenMagnitude

end Number.Interval

namespace Binary64
open Number BinaryFormat
variable {x : Binary64} {num den : Nat}

theorem units_eq_zero_iff : x.units = 0 ↔ x.index = 0 := by
  have hzero : double.units 0 = 0 := rfl
  rw [units, ← hzero]
  exact double.strictMono_units.injective.eq_iff

theorem isZero_iff : x.isZero = true ↔ x.units = 0 := by
  rw [units_eq_zero_iff, index, isZero, Bool.and_eq_true, beq_iff_eq, beq_iff_eq]
  omega

/-- The index of the magnitude `2 ^ 63`. -/
def index63 : Nat := 1086 * 2 ^ 52

theorem units_index63 : double.units index63 = 2 ^ 63 * one := by decide +kernel

theorem low_around_index63 :
    (Interval.around index63).low = (2 ^ 63 - 512) * Interval.one := by decide +kernel

theorem units_lt_iff : x.units < 2 ^ 63 * one ↔ x.index < index63 := by
  rw [units, ← units_index63]
  exact double.strictMono_units.lt_iff_lt

theorem isFinite_of_units_lt (h : x.units < 2 ^ 63 * one) : x.isFinite = true :=
  isFinite_of_index_lt (Nat.lt_trans (units_lt_iff.mp h) (by decide))

/-- A ratio in half units. -/
theorem scaled_div (num den : Nat) :
    ((2 * double.scaled num : Nat) : ℚ) / den = num / den * Interval.one := by
  rw [scaled, two_pow_unitBits, Interval.one_eq]
  push_cast
  ring

variable (num) (hden : 0 < den) (negative : Bool)
include hden

theorem units_ofRatio_lt_iff :
    (ofRatio negative num den).units < 2 ^ 63 * one ↔ (num / den : ℚ) < 2 ^ 63 - 512 := by
  have hone : (0 : ℚ) < Interval.one := by exact_mod_cast Interval.one_pos
  have hlast : index63 < double.infinityIndex := by decide
  have hclosed : (Interval.around index63).closed = true := by decide
  rw [units_lt_iff, index_ofRatio, index_eq, min_lt_iff, or_iff_left (Nat.not_lt.mpr hlast.le),
    Interval.nearest_lt_iff num hclosed hden, scaled_div, low_around_index63]
  push_cast
  rw [mul_lt_mul_iff_left₀ hone]
  norm_num

theorem units_ofRatio_eq_zero_iff :
    (ofRatio negative num den).units = 0 ↔ (num / den : ℚ) ≤ 1 / 2 ^ 1075 := by
  have hone : (0 : ℚ) < Interval.one := by exact_mod_cast Interval.one_pos
  have hclosed : (Interval.around 0).closed = true := by decide
  have hhigh : (Interval.around 0).high = 1 := by decide
  have hpower : (Interval.one : ℚ) = 2 ^ 1075 := by
    rw [Interval.one, Nat.cast_pow, Nat.cast_ofNat]
  have hlast : double.infinityIndex ≠ 0 := by decide
  rw [units_eq_zero_iff, index_ofRatio, index_eq, Nat.min_eq_zero_iff, or_iff_left hlast,
    ← Nat.le_zero, Interval.nearest_le_iff num hclosed hden, scaled_div, hhigh, Nat.cast_one,
    ← le_div_iff₀ hone, hpower]

end Binary64

namespace FetchParams
open Number Binary64
variable {x : Binary64} {n : Nat}

theorem limitOfNat?_eq_some {m : Nat} : limitOfNat? m = some n ↔ m = n ∧ n ≤ maxLimit := by
  unfold limitOfNat?
  split_ifs with h
  · rw [Option.some.injEq]
    exact ⟨fun heq => ⟨heq, heq ▸ h⟩, And.left⟩
  · refine ⟨fun hnone => ?_, fun ⟨heq, hle⟩ => absurd (heq ▸ hle) h⟩
    cases hnone

theorem limitOfNat?_ne_none : limitOfNat? n ≠ none ↔ n ≤ maxLimit := by
  unfold limitOfNat?
  split_ifs with h <;> simp [h]

theorem toNat_truncate (x : Binary64) :
    x.truncate.toNat = if x.negative then 0 else x.units / one := by
  have hnat : (x.units : Int) / one = (x.units / one : Nat) := (Int.natCast_ediv _ _).symm
  rw [truncate, hnat]
  split_ifs
  · exact Int.toNat_eq_zero.mpr (Int.neg_nonpos_of_nonneg (Int.natCast_nonneg _))
  · exact Int.toNat_natCast _

/-- A floating-point number is a limit if it is below `2 ^ 63` and, with a sign, zero. -/
theorem limitOfFloat?_ne_none :
    limitOfFloat? x ≠ none ↔ x.units < 2 ^ 63 * one ∧ (x.negative = true → x.units = 0) := by
  have hbound : 0 < 2 ^ 63 * one := Nat.mul_pos (Nat.two_pow_pos 63) Binary64.one_pos
  have hfinite : x.units < 2 ^ 63 * one → x.isFinite = true := isFinite_of_units_lt
  have hwhole : x.units / one ≤ maxLimit ↔ x.units < 2 ^ 63 * one := by
    rw [← Nat.div_lt_iff_lt_mul Binary64.one_pos]
    exact Nat.le_sub_one_iff_lt (by decide)
  rw [limitOfFloat?, toNat_truncate, ← isZero_iff]
  generalize 2 ^ 63 * one = bound at hbound hfinite hwhole ⊢
  cases hsign : x.negative with
  | false =>
    cases hx : x.isFinite with
    | true => simpa [limitOfNat?_ne_none] using hwhole
    | false => simpa [hx] using hfinite
  | true =>
    cases hzero : x.isZero with
    | true =>
      have hlt : x.units < bound := isZero_iff.mp hzero ▸ hbound
      simp [isFinite_of_isZero hzero, hlt, limitOfNat?_ne_none]
    | false => simp

theorem limitOfFloat?_iff : limitOfFloat? x ≠ none ↔
    x.isFinite = true ∧ 0 ≤ x.toRat ∧ x.toRat < 2 ^ 63 := by
  have hone : (0 : ℚ) < one := by exact_mod_cast Binary64.one_pos
  have hunits : (0 : ℚ) ≤ x.units / one := div_nonneg (Nat.cast_nonneg _) hone.le
  have hlt : (x.units / one : ℚ) < 2 ^ 63 ↔ x.units < 2 ^ 63 * one := by
    generalize one = step at hone ⊢
    rw [div_lt_iff₀ hone]
    norm_cast
  have hfinite : x.units < 2 ^ 63 * one → x.isFinite = true := isFinite_of_units_lt
  rw [limitOfFloat?_ne_none, toRat]
  cases x.negative with
  | false =>
    simp only [Bool.false_eq_true, if_false, false_implies, and_true, hunits, true_and, hlt]
    exact ⟨fun h => ⟨hfinite h, h⟩, And.right⟩
  | true =>
    have hzero : (0 : ℚ) ≤ -(x.units / one) ↔ x.units = 0 := by
      rw [neg_nonneg, hunits.ge_iff_eq', div_eq_zero_iff, or_iff_left hone.ne', Nat.cast_eq_zero]
    simp only [if_true, true_implies, hzero]
    constructor
    · rintro ⟨h, hx⟩
      exact ⟨hfinite h, hx, (neg_nonpos.mpr hunits).trans_lt (pow_pos two_pos 63)⟩
    · rintro ⟨-, hx, -⟩
      refine ⟨?_, hx⟩
      rw [hx]
      exact Nat.mul_pos (Nat.two_pow_pos 63) Binary64.one_pos

theorem isNearLimit_signed {negative : Bool} {q : ℚ} (hq : 0 ≤ q) :
    IsNearLimit (signed negative q) ↔
      if negative then q ≤ 1 / 2 ^ 1075 else q < 2 ^ 63 - 512 := by
  have hleast : (0 : ℚ) < 1 / 2 ^ 1075 := one_div_pos.mpr (pow_pos two_pos _)
  rw [IsNearLimit, signed]
  generalize (1 / 2 ^ 1075 : ℚ) = least at hleast ⊢
  cases negative with
  | false =>
    simp only [Bool.false_eq_true, if_false, and_iff_right_iff_imp]
    intro _
    linarith
  | true =>
    simp only [if_true, neg_le_neg_iff, and_iff_left_iff_imp]
    intro _
    linarith

/-- A ratio with a sign is rounded to a limit or not, as its value says. -/
theorem limitOfFloat?_ofRatio (negative : Bool) (num : Nat) {den : Nat} (hden : 0 < den) :
    limitOfFloat? (.ofRatio negative num den) ≠ none ↔
      IsNearLimit (signed negative (num / den)) := by
  have hratio : (0 : ℚ) ≤ num / den := div_nonneg (Nat.cast_nonneg _) (Nat.cast_nonneg _)
  have hbound : 0 < 2 ^ 63 * one := Nat.mul_pos (Nat.two_pow_pos 63) Binary64.one_pos
  have hsign : (ofRatio negative num den).negative = negative := rfl
  rw [limitOfFloat?_ne_none, hsign, isNearLimit_signed hratio]
  cases negative with
  | false =>
    simp only [Bool.false_eq_true, if_false, false_implies, and_true]
    exact units_ofRatio_lt_iff num hden false
  | true =>
    rw [if_pos rfl, ← units_ofRatio_eq_zero_iff num hden true]
    generalize 2 ^ 63 * one = bound at hbound ⊢
    simp only [true_implies, and_iff_right_iff_imp]
    exact fun hzero => hzero ▸ hbound

/-- What reaches `2 ^ 63` is rounded to no limit. -/
theorem not_isNearLimit_signed {negative : Bool} {q : ℚ} (h : 2 ^ 63 ≤ q) :
    ¬ IsNearLimit (signed negative q) := by
  have hlarge : (1 : ℚ) < 2 ^ 63 := one_lt_pow₀ one_lt_two (by decide)
  have hleast : (1 / 2 ^ 1075 : ℚ) ≤ 1 := div_le_one_of_le₀ (one_le_pow₀ one_le_two) (by positivity)
  rw [isNearLimit_signed (by linarith)]
  generalize (1 / 2 ^ 1075 : ℚ) = least at hleast ⊢
  cases negative with
  | false =>
    rw [if_neg Bool.false_ne_true, not_lt]
    linarith
  | true =>
    rw [if_pos rfl, not_le]
    linarith

/-- What does not exceed half the smallest number is rounded to zero. -/
theorem isNearLimit_signed_of_le {negative : Bool} {q : ℚ} (hq : 0 ≤ q) (h : q ≤ 1 / 2 ^ 1075) :
    IsNearLimit (signed negative q) := by
  have hleast : (1 / 2 ^ 1075 : ℚ) ≤ 1 := div_le_one_of_le₀ (one_le_pow₀ one_le_two) (by positivity)
  rw [isNearLimit_signed hq]
  generalize (1 / 2 ^ 1075 : ℚ) = least at h hleast
  split_ifs
  · exact h
  · norm_num
    linarith

end FetchParams

namespace Number.Numeral
open FetchParams Binary64
variable {n : Numeral}

theorem value_nonneg (n : Numeral) : 0 ≤ n.value :=
  mul_nonneg (Nat.cast_nonneg _) (zpow_nonneg (by norm_num) _)

theorem ratio_den_pos (n : Numeral) : 0 < n.ratio.2 := by
  unfold ratio
  dsimp only
  split_ifs
  · exact Nat.one_pos
  · exact Nat.one_pos
  · exact Nat.one_pos
  · exact Nat.pow_pos (by decide)

theorem value_lt (h : n.Fits) : n.value < 10 ^ (n.scale + (n.whole ++ n.fraction).length) := by
  have hten : (10 : ℚ) ≠ 0 := by norm_num
  have hdigits : (n.digits : ℚ) < 10 ^ (n.whole ++ n.fraction).length := by exact_mod_cast h
  rw [value, add_comm, zpow_add₀ hten, zpow_natCast]
  exact mul_lt_mul_of_pos_right hdigits (zpow_pos (by norm_num) _)

/-- Writing a numeral down as a ratio does not change whether it is rounded to a limit. -/
theorem isNearLimit_ratio (h : n.Fits) (negative : Bool) :
    IsNearLimit (signed negative (n.ratio.1 / n.ratio.2)) ↔
      IsNearLimit (signed negative n.value) := by
  have hten : (1 : ℚ) ≤ 10 := by norm_num
  unfold ratio
  dsimp only
  split_ifs with hzero hlarge hsmall
  · rw [value, hzero]
    simp
  · -- Both are beyond every limit.
    have hpower : (2 ^ 63 : ℚ) ≤ 10 ^ 400 :=
      (pow_le_pow_left₀ zero_le_two (by norm_num) 63).trans (pow_le_pow_right₀ hten (by decide))
    have hdigits : (1 : ℚ) ≤ n.digits := by exact_mod_cast Nat.one_le_iff_ne_zero.mpr hzero
    have hscale : (10 ^ 400 : ℚ) ≤ 10 ^ n.scale := by
      rw [← zpow_natCast]
      exact zpow_le_zpow_right₀ hten (by omega)
    have hvalue : (2 ^ 63 : ℚ) ≤ n.value :=
      (hpower.trans hscale).trans (le_mul_of_one_le_left (by positivity) hdigits)
    have hratio : (2 ^ 63 : ℚ) ≤ (10 ^ 400 : Nat) / (1 : Nat) := by
      rwa [Nat.cast_one, div_one, Nat.cast_pow, Nat.cast_ofNat]
    exact iff_of_false (not_isNearLimit_signed hratio) (not_isNearLimit_signed hvalue)
  · -- Both are rounded to zero.
    have hpower : (2 ^ 1075 : ℚ) ≤ 10 ^ 400 := by
      calc (2 ^ 1075 : ℚ) ≤ 2 ^ (3 * 400) := pow_le_pow_right₀ one_le_two (by decide)
        _ = (2 ^ 3) ^ 400 := pow_mul _ _ _
        _ ≤ 10 ^ 400 := pow_le_pow_left₀ (by norm_num) (by norm_num) 400
    have hvalue : n.value ≤ 1 / 2 ^ 1075 := by
      calc n.value ≤ 10 ^ (n.scale + (n.whole ++ n.fraction).length) := (value_lt h).le
        _ ≤ 10 ^ (-(400 : Nat) : Int) := zpow_le_zpow_right₀ hten (by omega)
        _ = 1 / 10 ^ 400 := by rw [zpow_neg, zpow_natCast, one_div]
        _ ≤ 1 / 2 ^ 1075 := one_div_le_one_div_of_le (pow_pos two_pos _) hpower
    refine iff_of_true (isNearLimit_signed_of_le ?_ ?_)
      (isNearLimit_signed_of_le n.value_nonneg hvalue)
    · simp
    · rw [Nat.cast_zero, zero_div]
      exact (one_div_pos.mpr (pow_pos two_pos _)).le
  · have hratio : ((n.digits * 10 ^ n.scale.toNat : Nat) : ℚ) / (10 ^ (-n.scale).toNat : Nat) =
        n.value := by
      push_cast
      rw [div_eq_iff (by positivity), value, mul_assoc, Interval.zpow_ten]
    rw [hratio]

end Number.Numeral

namespace FetchParams
open Number Binary64
variable {s : String} {i : Int}

/-- A text is read as a number that is a limit if it is the text of a number in decimal that is
rounded to one. -/
theorem exists_ofText?_iff :
    (ofText? s).bind limitOfFloat? ≠ none ↔ ∃ q, Text.IsNumeralOf s q ∧ IsNearLimit q := by
  constructor
  · intro h
    obtain ⟨k, hk⟩ := Option.ne_none_iff_exists'.mp h
    obtain ⟨x, hx, hlimit⟩ := Option.bind_eq_some_iff.mp hk
    have hne : limitOfFloat? x ≠ none := Option.ne_none_iff_exists'.mpr ⟨k, hlimit⟩
    obtain ⟨negative, n, hs, hfits, rfl⟩ := isNumeralOf_of_ofText? hx (limitOfFloat?_iff.mp hne).1
    rw [limitOfFloat?_ofRatio negative _ n.ratio_den_pos, n.isNearLimit_ratio hfits] at hne
    exact ⟨_, hs, hne⟩
  · rintro ⟨q, hs, hq⟩
    obtain ⟨negative, n, rfl, hfits, hread⟩ := ofText?_of_isNumeralOf hs
    rw [hread, Option.bind_some, limitOfFloat?_ofRatio negative _ n.ratio_den_pos,
      n.isNearLimit_ratio hfits]
    exact hq

/-- An integer as a limit. -/
def limitOfInt? (i : Int) : Option Nat := if 0 ≤ i then limitOfNat? i.toNat else none

theorem limitOfInt?_eq_some {n : Nat} : limitOfInt? i = some n ↔ (n : Int) = i ∧ i < 2 ^ 63 := by
  have hmax : maxLimit = 2 ^ 63 - 1 := rfl
  unfold limitOfInt?
  split_ifs with hi
  · rw [limitOfNat?_eq_some]
    omega
  · refine ⟨fun hnone => ?_, fun ⟨heq, _⟩ => absurd (heq ▸ Int.natCast_nonneg n) hi⟩
    cases hnone

theorem limitOfInt?_ne_none : limitOfInt? i ≠ none ↔ 0 ≤ i ∧ i < 2 ^ 63 := by
  rw [Option.ne_none_iff_exists']
  simp only [limitOfInt?_eq_some]
  constructor
  · rintro ⟨n, hn, hlt⟩
    omega
  · rintro ⟨h, hlt⟩
    exact ⟨i.toNat, Int.toNat_of_nonneg h, hlt⟩

theorem limitOfInt?_eq_none (h : i < 0 ∨ 2 ^ 63 ≤ i) : limitOfInt? i = none := by
  by_contra hne
  have hrange := limitOfInt?_ne_none.mp hne
  omega

/-- Zero is a limit with either sign. -/
theorem limitOfFloat?_zero (negative : Bool) :
    limitOfFloat? (.ofRatio negative 0 1) = some 0 := by
  cases negative <;> decide +kernel

/-- No integer but a limit is rounded to one. -/
theorem IsNearLimit.range (h : IsNearLimit i) : 0 ≤ i ∧ i < 2 ^ 63 := by
  have hleast : (1 / 2 ^ 1075 : ℚ) < 1 :=
    (div_lt_one (pow_pos two_pos _)).mpr (one_lt_pow₀ one_lt_two (by decide))
  obtain ⟨hlow, hhigh⟩ := h
  generalize (1 / 2 ^ 1075 : ℚ) = least at hleast hlow
  have hone : ((-1 : Int) : ℚ) < i := by
    push_cast
    linarith
  have hbound : (i : ℚ) < (2 ^ 63 : Int) := by
    push_cast
    linarith
  exact ⟨Int.cast_lt.mp hone, Int.cast_lt.mp hbound⟩

theorem denotes_of_readWord? {n : Nat} (h : Text.readWord? s = some n) : Text.Denotes s n :=
  Text.denotes_of_readNatural? (Option.filter_eq_some_iff.mp h).1

/-- What denotes an integer and is no word is zero with a sign, below zero or too large. -/
theorem readWord?_eq_none (h : Text.Denotes s i) (hword : Text.readWord? s = none) :
    i ≤ 0 ∨ 2 ^ 63 ≤ i := by
  by_contra hrange
  have hread := Text.readNatural?_of_denotes h (by omega)
  have hsize : UInt64.size = 2 ^ 64 := rfl
  have hfits : i.natAbs < UInt64.size := by omega
  rw [Text.readWord?, hread, Option.filter_some, if_pos (decide_eq_true hfits)] at hword
  cases hword

/-- The text of an integer is a limit if the integer is one. -/
theorem limit?_of_denotes (h : Text.Denotes (Text.trim s) i) :
    limit? (.string s) = limitOfInt? i := by
  simp only [limit?]
  split
  · next n hword =>
    rw [h.unique (denotes_of_readWord? hword), limitOfInt?, if_pos (Int.natCast_nonneg n),
      Int.toNat_natCast]
  · next hword =>
    obtain ⟨negative, n, hi, hfits, hread⟩ := ofText?_of_isNumeralOf h.isNumeralOf
    rw [hread, Option.bind_some]
    rcases eq_or_ne i 0 with rfl | hne
    · have hvalue : n.digits = 0 := by
        have hsigned : n.value = 0 := by cases negative <;> simpa [signed] using hi.symm
        have hpower : (10 : ℚ) ^ n.scale ≠ 0 := zpow_ne_zero _ (by norm_num)
        exact Nat.cast_eq_zero.mp ((mul_eq_zero.mp hsigned).resolve_right hpower)
      rw [Numeral.ratio, if_pos hvalue, limitOfFloat?_zero]
      rfl
    · have hrange := readWord?_eq_none h hword
      rw [limitOfInt?_eq_none (by omega)]
      by_contra hlimit
      rw [← ne_eq, limitOfFloat?_ofRatio negative _ n.ratio_den_pos, n.isNearLimit_ratio hfits,
        ← hi] at hlimit
      have hnear := hlimit.range
      omega

/-- Data are read as a limit if they stand for one. -/
theorem limit?_ne_none_iff {j : Json} : limit? j ≠ none ↔ IsLimit j := by
  cases j with
  | int i =>
    have hint : limit? (.int i) = limitOfInt? i.val := rfl
    rw [hint, limitOfInt?_ne_none]
    exact ⟨fun ⟨h, hlt⟩ => .int h hlt, fun (.int h hlt) => ⟨h, hlt⟩⟩
  | float x =>
    have hfloat : limit? (.float x) = limitOfFloat? x.val := rfl
    rw [hfloat, limitOfFloat?_iff]
    exact ⟨fun ⟨_, h, hlt⟩ => .float h hlt, fun (.float h hlt) => ⟨x.isFinite, h, hlt⟩⟩
  | string s =>
    by_cases hinteger : ∃ i, Text.Denotes (Text.trim s) i
    · obtain ⟨i, hi⟩ := hinteger
      rw [limit?_of_denotes hi, limitOfInt?_ne_none]
      constructor
      · rintro ⟨h, hlt⟩
        exact .integer hi h hlt
      · rintro (_ | _ | ⟨hs, h, hlt⟩ | ⟨_, hno, _⟩)
        · exact hi.unique hs ▸ ⟨h, hlt⟩
        · exact absurd hi (hno i)
    · have hword : Text.readWord? (Text.trim s) = none := by
        exact Option.eq_none_iff_forall_ne_some.mpr fun n hn =>
          hinteger ⟨n, denotes_of_readWord? hn⟩
      simp only [limit?, hword, exists_ofText?_iff]
      constructor
      · rintro ⟨q, hs, hq⟩
        exact .numeral hs (fun i hi => hinteger ⟨i, hi⟩) hq
      · rintro (_ | _ | ⟨hs, _, _⟩ | ⟨hs, _, hq⟩)
        · exact absurd ⟨_, hs⟩ hinteger
        · exact ⟨_, hs, hq⟩
  | null | bool | array | object =>
    refine iff_of_false (fun h => h rfl) ?_
    rintro ⟨⟩

end FetchParams

end TableAccess
