import TableAccess.Number.Binary64

/-!
# Bounds of rounded numbers

Rounding a ratio keeps to the powers of two around it: what is below one is rounded to no more than
it, and what reaches one is not taken below it. So a number that is not too large is rounded to a
finite one.
-/
namespace TableAccess

namespace Number

theorem roundHalfEven_le (num den : Nat) : roundHalfEven num den ≤ num / den + 1 := by
  have hmod : num / den % 2 < 2 := Nat.mod_lt _ (by decide)
  simp only [roundHalfEven]
  split
  · omega
  · split <;> omega

theorem le_roundHalfEven (num den : Nat) : num / den ≤ roundHalfEven num den := by
  simp only [roundHalfEven]
  split
  · omega
  · split <;> omega

namespace BinaryFormat
variable {f : BinaryFormat} {num den s : Nat}

/-- A ratio below a power of two has an index below that of a power of two. -/
theorem index_le (h : num * 2 ^ f.unitBits / den < 2 ^ (f.fractionBits + 1 + s)) :
    f.index num den ≤ (s + 2) * 2 ^ f.fractionBits := by
  simp only [index]
  generalize hq : num * 2 ^ f.unitBits / den = q at h
  generalize hshift : Nat.log2 q - f.fractionBits = shift
  have hlog : Nat.log2 q < f.fractionBits + 1 + s := by
    by_cases hzero : q = 0
    · rw [hzero, Nat.log2_zero]
      omega
    · exact (Nat.log2_lt hzero).mpr h
  have hs : shift ≤ s := by omega
  have hbelow : q < 2 ^ (shift + (f.fractionBits + 1)) := by
    refine Nat.lt_of_lt_of_le Nat.lt_log2_self (Nat.pow_le_pow_right (by decide) ?_)
    omega
  have hsignificand : num * 2 ^ f.unitBits / (den * 2 ^ shift) < 2 ^ (f.fractionBits + 1) := by
    rw [← Nat.div_div_eq_div_mul, hq, Nat.div_lt_iff_lt_mul (Nat.two_pow_pos shift), ← Nat.pow_add,
      Nat.add_comm _ shift]
    exact hbelow
  -- Rounding may reach the next power of two: that is the exponent the bound has to spare.
  have hround := roundHalfEven_le (num * 2 ^ f.unitBits) (den * 2 ^ shift)
  have hscale : shift * 2 ^ f.fractionBits ≤ s * 2 ^ f.fractionBits :=
    Nat.mul_le_mul_right _ hs
  rw [Nat.pow_succ] at hsignificand
  rw [Nat.add_mul]
  omega

/-- A ratio from a power of two on has an index from that of the power on. -/
theorem le_index (hs : s + 1 ≤ f.lastExponent)
    (h : 2 ^ (f.fractionBits + s) ≤ num * 2 ^ f.unitBits / den) :
    (s + 1) * 2 ^ f.fractionBits ≤ f.index num den := by
  simp only [index, infinityIndex]
  generalize hq : num * 2 ^ f.unitBits / den = q at h
  generalize hshift : Nat.log2 q - f.fractionBits = shift
  have hpos : q ≠ 0 := by
    have := Nat.two_pow_pos (f.fractionBits + s)
    omega
  have hlog : f.fractionBits + s ≤ Nat.log2 q := (Nat.le_log2 hpos).mpr h
  have hs' : s ≤ shift := by omega
  have habove : 2 ^ f.fractionBits * 2 ^ shift ≤ q := by
    rw [← Nat.pow_add, show f.fractionBits + shift = Nat.log2 q by omega]
    exact Nat.log2_self_le hpos
  have hsignificand : 2 ^ f.fractionBits ≤ num * 2 ^ f.unitBits / (den * 2 ^ shift) := by
    rw [← Nat.div_div_eq_div_mul, hq, Nat.le_div_iff_mul_le (Nat.two_pow_pos shift)]
    exact habove
  have hround := le_roundHalfEven (num * 2 ^ f.unitBits) (den * 2 ^ shift)
  have hlow : s * 2 ^ f.fractionBits ≤ shift * 2 ^ f.fractionBits := Nat.mul_le_mul_right _ hs'
  have hhigh : (s + 1) * 2 ^ f.fractionBits ≤ f.lastExponent * 2 ^ f.fractionBits :=
    Nat.mul_le_mul_right _ hs
  rw [Nat.add_mul] at hhigh ⊢
  omega

theorem units_lt (i : Nat) : f.units i < 2 ^ (f.fractionBits + i / 2 ^ f.fractionBits) := by
  have hfraction := Nat.mod_lt i (Nat.two_pow_pos f.fractionBits)
  simp only [units]
  split
  · next hzero => simpa [hzero] using hfraction
  · next hzero =>
    obtain ⟨e, he⟩ := Nat.exists_eq_succ_of_ne_zero hzero
    rw [he, Nat.succ_sub_one, Nat.add_succ, ← Nat.succ_add, Nat.pow_add, Nat.pow_succ]
    exact Nat.mul_lt_mul_of_pos_right (by omega) (Nat.two_pow_pos e)

theorem le_units {i : Nat} (h : (s + 1) * 2 ^ f.fractionBits ≤ i) :
    2 ^ (f.fractionBits + s) ≤ f.units i := by
  have hexponent : s + 1 ≤ i / 2 ^ f.fractionBits :=
    (Nat.le_div_iff_mul_le (Nat.two_pow_pos _)).mpr h
  have hne : i / 2 ^ f.fractionBits ≠ 0 := by omega
  simp only [units, if_neg hne, Nat.pow_add]
  exact Nat.mul_le_mul (by omega) (Nat.pow_le_pow_right (by decide) (by omega))

end BinaryFormat

end Number

namespace Binary64
open Number

theorem one_pos : 0 < one := by
  unfold one
  generalize 1074 = n
  exact Nat.two_pow_pos n

theorem two_pow_unitBits : 2 ^ BinaryFormat.double.unitBits = one := by
  have hbits : BinaryFormat.double.unitBits = 1074 := rfl
  rw [hbits, one]

theorem two_pow_add_unitBits (k : Nat) : 2 ^ (k + BinaryFormat.double.unitBits) = 2 ^ k * one := by
  rw [Nat.pow_add, two_pow_unitBits]

theorem index_ofRatio (negative : Bool) (num den : Nat) :
    (ofRatio negative num den).index = BinaryFormat.double.index num den := by
  have hinfinity : BinaryFormat.double.infinityIndex = 2047 * 2 ^ 52 := rfl
  have hle : BinaryFormat.double.index num den ≤ BinaryFormat.double.infinityIndex :=
    Nat.min_le_right _ _
  simp only [ofRatio, index, ofIndex, Nat.min_eq_left hle, Fin.val_ofNat]
  omega

theorem isFinite_of_index_lt {x : Binary64} (h : x.index < 2047 * 2 ^ 52) :
    x.isFinite = true := by
  rw [index] at h
  simp only [isFinite, bne_iff_ne]
  omega

theorem isFinite_of_isZero {x : Binary64} (h : x.isZero = true) : x.isFinite = true := by
  simp only [isZero, Bool.and_eq_true, beq_iff_eq] at h
  simp [isFinite, h.1]

variable {negative : Bool} {num den k : Nat}

theorem index_ofRatio_le (h : num < 2 ^ k * den) :
    (ofRatio negative num den).index ≤ (k + 1023) * 2 ^ BinaryFormat.double.fractionBits := by
  have hbits : BinaryFormat.double.fractionBits + 1 + (k + 1021) =
      k + BinaryFormat.double.unitBits := by
    simp only [BinaryFormat.double]
    omega
  have hpos : 0 < den := Nat.pos_of_ne_zero fun hzero => by simp [hzero] at h
  have hscaled : num * 2 ^ BinaryFormat.double.unitBits / den <
      2 ^ (BinaryFormat.double.fractionBits + 1 + (k + 1021)) := by
    rw [Nat.div_lt_iff_lt_mul hpos, hbits, Nat.pow_add, Nat.mul_right_comm]
    exact Nat.mul_lt_mul_of_pos_right h (Nat.two_pow_pos _)
  rw [index_ofRatio]
  exact BinaryFormat.index_le hscaled

theorem isFinite_ofRatio (h : num < 2 ^ k * den) (hk : k < 1024) :
    (ofRatio negative num den).isFinite = true := by
  have hindex : (ofRatio negative num den).index ≤ (k + 1023) * 2 ^ 52 := index_ofRatio_le h
  apply isFinite_of_index_lt
  omega

theorem units_ofRatio_lt (h : num < 2 ^ k * den) :
    (ofRatio negative num den).units < 2 ^ (k + 1 + BinaryFormat.double.unitBits) := by
  have hindex : (ofRatio negative num den).index ≤ (k + 1023) * 2 ^ 52 := index_ofRatio_le h
  have hexponent : (ofRatio negative num den).index / 2 ^ BinaryFormat.double.fractionBits ≤
      k + 1023 := by
    apply Nat.le_of_mul_le_mul_right _ (Nat.two_pow_pos BinaryFormat.double.fractionBits)
    exact Nat.le_trans (Nat.div_mul_le_self _ _) hindex
  refine Nat.lt_of_lt_of_le (BinaryFormat.units_lt _) (Nat.pow_le_pow_right (by decide) ?_)
  simp only [BinaryFormat.double] at hexponent ⊢
  omega

/-- Rounding does not take a number below a power of two that it reaches. -/
theorem le_units_ofRatio (hpos : 0 < den) (h : 2 ^ k * den ≤ num) (hk : k < 1024) :
    2 ^ (k + BinaryFormat.double.unitBits) ≤ (ofRatio negative num den).units := by
  have hbits : BinaryFormat.double.fractionBits + (k + 1022) =
      k + BinaryFormat.double.unitBits := by
    simp only [BinaryFormat.double]
    omega
  have hscaled : 2 ^ (BinaryFormat.double.fractionBits + (k + 1022)) ≤
      num * 2 ^ BinaryFormat.double.unitBits / den := by
    rw [Nat.le_div_iff_mul_le hpos, hbits, Nat.pow_add, Nat.mul_right_comm]
    exact Nat.mul_le_mul_right _ h
  have hlast : k + 1022 + 1 ≤ BinaryFormat.double.lastExponent := by
    simp only [BinaryFormat.double]
    omega
  have hindex := BinaryFormat.le_index hlast hscaled
  rw [← index_ofRatio negative] at hindex
  rw [← hbits]
  exact BinaryFormat.le_units hindex

theorem le_units_ofRatio_one {n : Nat} (h : 2 ^ k ≤ n) (hk : k < 1024) :
    2 ^ k * one ≤ (ofRatio negative n 1).units := by
  have hratio : 2 ^ k * 1 ≤ n := by omega
  have hunits : _ ≤ (ofRatio negative n 1).units := le_units_ofRatio Nat.one_pos hratio hk
  rwa [two_pow_add_unitBits] at hunits

/-- An integer of 64 bits is no more than rounded. -/
theorem isFinite_ofInt {i : Int} (h : i.natAbs < 2 ^ 64) : (ofInt i).isFinite = true := by
  apply isFinite_ofRatio (k := 64) _ (by decide)
  rwa [Nat.mul_one]

end Binary64

end TableAccess
