import Mathlib.Data.List.Basic
import TableAccess.Number.Layout
import TableAccess.Proofs.Numerals
import TableAccess.Proofs.ShortestDecimals

/-!
# Numbers in plain text

The text of a fraction is its sign and the digits of its shortest decimal, with a point among them.
The point tells it from the text of an integer, and the digits on its two sides tell it from the
text of any other fraction.
-/
namespace TableAccess

namespace Number.Layout
variable {w : Bool} {exponent : Int}

/-- Behind the point of a decimal with fraction digits are as many digits as the exponent says. -/
theorem placed_of_neg (w : Bool) (digits : List Char) (h : exponent < 0) :
    ∃ whole fraction zeros, placed w digits exponent = whole ++ '.' :: fraction ∧
      (fraction.length : Int) = -exponent ∧
      whole ++ fraction = List.replicate zeros '0' ++ digits := by
  unfold placed
  dsimp only
  rw [if_neg (Int.not_le.mpr h)]
  split_ifs with hpoint
  · refine ⟨_, _, 0, rfl, ?_, List.take_append_drop _ _⟩
    rw [List.length_drop]
    omega
  · refine ⟨['0'], List.replicate (-(digits.length + exponent)).toNat '0' ++ digits,
      (-(digits.length + exponent)).toNat + 1, rfl, ?_, ?_⟩
    · rw [List.length_append, List.length_replicate]
      omega
    · rw [List.replicate_succ]
      rfl

/-- The digits on the two sides of the point denote the number without its point. -/
theorem exists_sides (w : Bool) (h : exponent < 0) (n : Nat) :
    ∃ whole fraction, placed w (Nat.toDigits 10 n) exponent = whole ++ '.' :: fraction ∧
      (∀ c ∈ whole ++ fraction, c.isDigit = true) ∧ (fraction.length : Int) = -exponent ∧
      Nat.ofDigitChars 10 (whole ++ fraction) 0 = n := by
  obtain ⟨whole, fraction, zeros, hplaced, hlength, hsides⟩ :=
    placed_of_neg w (Nat.toDigits 10 n) h
  refine ⟨whole, fraction, hplaced, ?_, hlength, ?_⟩
  · intro c hc
    rw [hsides, List.mem_append] at hc
    rcases hc with hzero | hdigits
    · rw [List.eq_of_mem_replicate hzero]
      rfl
    · exact Text.isDigit_of_mem_toDigits hdigits
  · rw [hsides, Nat.ofDigitChars_append, Nat.ofDigitChars_replicate_zero, Nat.mul_zero,
      Nat.ofDigitChars_ten_toDigits]

theorem mem_placed (w : Bool) (h : exponent < 0) (n : Nat) {c : Char}
    (hc : c ∈ placed w (Nat.toDigits 10 n) exponent) : c = '.' ∨ c.isDigit = true := by
  obtain ⟨whole, fraction, hplaced, hdigit, -, -⟩ := exists_sides w h n
  rw [hplaced, List.mem_append, List.mem_cons] at hc
  rcases hc with hwhole | rfl | hfraction
  · exact .inr (hdigit c (List.mem_append_left _ hwhole))
  · exact .inl rfl
  · exact .inr (hdigit c (List.mem_append_right _ hfraction))

theorem point_mem_placed (w : Bool) (h : exponent < 0) (n : Nat) :
    '.' ∈ placed w (Nat.toDigits 10 n) exponent := by
  obtain ⟨whole, fraction, hplaced, -, -, -⟩ := exists_sides w h n
  simp [hplaced]

theorem minus_notMem_placed (w : Bool) (h : exponent < 0) (n : Nat) :
    '-' ∉ placed w (Nat.toDigits 10 n) exponent := by
  intro hmem
  rcases mem_placed w h n hmem with hpoint | hdigit
  · exact absurd hpoint (by decide)
  · exact absurd hdigit (by decide)

/-- A sign is told from what has none in it. -/
theorem eq_of_signed_eq {b b' : Bool} {cs cs' : List Char} (hcs : '-' ∉ cs) (hcs' : '-' ∉ cs')
    (h : (if b then ['-'] else []) ++ cs = (if b' then ['-'] else []) ++ cs') :
    b = b' ∧ cs = cs' := by
  cases b <;> cases b'
  · exact ⟨rfl, h⟩
  · refine absurd ?_ hcs
    rw [show cs = '-' :: cs' from h]
    exact List.mem_cons_self
  · refine absurd ?_ hcs'
    rw [show cs' = '-' :: cs from h.symm]
    exact List.mem_cons_self
  · exact ⟨rfl, (List.cons_inj_right _).mp h⟩

/-- A decimal with fraction digits is known from its text. -/
theorem eq_of_placed_eq {d e : Decimal} (hd : d.exponent < 0) (he : e.exponent < 0)
    (h : placed w (Nat.toDigits 10 d.digits) d.exponent =
      placed w (Nat.toDigits 10 e.digits) e.exponent) : d = e := by
  obtain ⟨whole, fraction, hplaced, -, hlength, hvalue⟩ := exists_sides w hd d.digits
  obtain ⟨whole', fraction', hplaced', hdigit, hlength', hvalue'⟩ := exists_sides w he e.digits
  rw [hplaced, hplaced'] at h
  have hpoint : '.' ∉ whole' ++ fraction' := fun hmem => by simpa using hdigit '.' hmem
  rw [List.mem_append, not_or] at hpoint
  obtain ⟨rfl, -, rfl⟩ := (List.append_cons_inj_of_notMem hpoint.1 hpoint.2).mp h.symm
  have hdigits : d.digits = e.digits := hvalue.symm.trans hvalue'
  have hexponent : d.exponent = e.exponent := by omega
  cases d
  cases e
  exact (Decimal.mk.injEq ..).mpr ⟨hdigits, hexponent⟩

end Number.Layout

namespace Binary64
open Number
variable {x y : Binary64}

theorem magnitude_plainLayout (d : Decimal) :
    plainLayout.magnitude d = Layout.placed false (Nat.toDigits 10 d.digits) d.exponent := by
  rw [Layout.magnitude]
  rfl

theorem toText_of_finite (h : x.isFinite = true) :
    x.toText = String.ofList ((if x.negative then ['-'] else [])
      ++ Layout.placed false (Nat.toDigits 10 (shortest .away x).digits)
        (shortest .away x).exponent) := by
  have hnan : x.isNaN = false := by
    simp only [isFinite, bne_iff_ne] at h
    simp [isNaN, h]
  rw [toText, Layout.write, hnan, h, Layout.finite, magnitude_plainLayout]
  simp only [Bool.false_eq_true, if_false, if_true]
  rfl

theorem point_mem_toText (h : x.isFinite = true) (hx : ¬ one ∣ x.units) :
    '.' ∈ x.toText.toList := by
  have hpoint := Layout.point_mem_placed false (exponent_shortest_neg .away hx)
    (shortest .away x).digits
  rw [toText_of_finite h, String.toList_ofList]
  exact List.mem_append_right _ hpoint

/-- A fraction is known from its text. -/
theorem eq_of_toText_eq (hx : x.isFinite = true) (hy : y.isFinite = true)
    (hfx : ¬ one ∣ x.units) (hfy : ¬ one ∣ y.units) (h : x.toText = y.toText) :
    x.negative = y.negative ∧ x.index = y.index := by
  have hnx := exponent_shortest_neg .away hfx
  have hny := exponent_shortest_neg .away hfy
  rw [toText_of_finite hx, toText_of_finite hy, String.ofList_inj] at h
  obtain ⟨hsign, hplaced⟩ := Layout.eq_of_signed_eq (Layout.minus_notMem_placed false hnx _)
    (Layout.minus_notMem_placed false hny _) h
  exact ⟨hsign, index_eq_of_shortest_eq .away (index_ne_zero hfx) (index_ne_zero hfy)
    (Layout.eq_of_placed_eq hnx hny hplaced)⟩

end Binary64

end TableAccess
